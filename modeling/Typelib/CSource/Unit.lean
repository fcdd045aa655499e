import Typelib.Artifact.Basic
import Typelib.CSource.Lexeme
import Typelib.Text.Lines

/-!
# Artifacts as C source

A C file that holds the bytes of an artifact in an array, with a function that loads them when the
program starts and one that frees them when it ends.

* `Artifact.cSource`: the text of the file.
-/

namespace Typelib

namespace CSource

/-- Number of bytes on a line. -/
def bytesPerLine : Nat := 12

/-- The bytes, line by line. -/
def byteLines (bytes : Bytes) : List (List UInt8) :=
  (List.range ((bytes.size + bytesPerLine - 1) / bytesPerLine)).map fun i =>
    (bytes.extract (bytesPerLine * i) (bytesPerLine * i + bytesPerLine)).toList

/-- Bytes as a line of an array. -/
def arrayLine (bytes : List UInt8) : String := "  " ++ ", ".intercalate (bytes.map byte) ++ ","

/-- The array that holds the bytes. -/
def array (name : String) (bytes : Bytes) : List String :=
  ["static const guint8 " ++ name ++ "_typelib_data[" ++ toString bytes.size ++ "] = \x7b"] ++
    (byteLines bytes).map arrayLine ++ ["\x7d;"]

/-- The function that loads the array. -/
def constructor (name : String) (namespaceName : String) : List String :=
  ["__attribute__((constructor)) static void",
    "register_" ++ name ++ "_typelib (void)",
    "\x7b",
    "  GError *error = NULL;",
    "",
    "  " ++ name ++ "_typelib = g_typelib_new_from_const_memory (",
    "      " ++ name ++ "_typelib_data, sizeof (" ++ name ++ "_typelib_data), &error);",
    "  if (" ++ name ++ "_typelib == NULL",
    "      || g_irepository_load_typelib (NULL, " ++ name ++ "_typelib, 0, &error) == NULL)",
    "    \x7b",
    "      g_warning (\"failed to load typelib %s: %s\", " ++ literal namespaceName ++
      ", error->message);",
    "      g_clear_error (&error);",
    "    \x7d",
    "\x7d"]

/-- The function that frees what was loaded. -/
def destructor (name : String) : List String :=
  ["__attribute__((destructor)) static void",
    "unregister_" ++ name ++ "_typelib (void)",
    "\x7b",
    "  g_clear_pointer (&" ++ name ++ "_typelib, g_typelib_free);",
    "\x7d"]

end CSource

open CSource in
/-- The C file that holds an artifact. -/
def Artifact.cSource (a : Artifact) : String :=
  let name := identifier a.namespaceName
  Text.ofLines <|
    [comment ("typelib for namespace " ++ a.namespaceName), "", "#include <girepository.h>", ""] ++
      array name a.bytes ++ ["", "static GITypelib *" ++ name ++ "_typelib;", ""] ++
      constructor name a.namespaceName ++ [""] ++ destructor name

end Typelib
