import Typelib.Binary.TypeRef

/-!
# Rows of callables

Functions, callbacks, signals and virtual functions, and the signature bodies that they point at. A
signature row is followed by one argument row per parameter.

The bits of each `flags` word are named beside the row; the word itself is a `flagWord`, so a named
bit is the position of a flag in that list.
-/

namespace Typelib

open Record

/-! ### Functions -/

structure FunctionRow where
  kind : UInt16
  flags : UInt16
  /-- Position of the virtual function that is wrapped, else of the property that is accessed. -/
  index : UInt16
  name : UInt32
  symbol : UInt32
  signature : UInt32
  deriving DecidableEq, Repr

namespace FunctionRow

def deprecatedBit : Nat := 0
def setterBit : Nat := 1
def getterBit : Nat := 2
def constructorBit : Nat := 3
def wrapsVFuncBit : Nat := 4
def methodBit : Nat := 5

instance : Row FunctionRow where
  record := (word16.seq <| .seq word16 <| .seq word16 <| .seq (filler 2) <| .seq word32 <|
    .seq word32 word32).imap
    (fun (kind, flags, index, _, name, symbol, signature) =>
      ⟨kind, flags, index, name, symbol, signature⟩)
    (fun r => (r.kind, r.flags, r.index, (), r.name, r.symbol, r.signature))

end FunctionRow

/-! ### Callbacks -/

structure CallbackRow where
  kind : UInt16
  flags : UInt16
  name : UInt32
  signature : UInt32
  deriving DecidableEq, Repr

namespace CallbackRow

def deprecatedBit : Nat := 0

instance : Row CallbackRow where
  record := (word16.seq <| .seq word16 <| .seq word32 word32).imap
    (fun (kind, flags, name, signature) => ⟨kind, flags, name, signature⟩)
    (fun r => (r.kind, r.flags, r.name, r.signature))

end CallbackRow

/-! ### Signals -/

structure SignalRow where
  flags : UInt16
  /-- Position of the virtual function that is the class closure. -/
  classClosure : UInt16
  name : UInt32
  signature : UInt32
  deriving DecidableEq, Repr

namespace SignalRow

def deprecatedBit : Nat := 0
def runFirstBit : Nat := 1
def runLastBit : Nat := 2
def runCleanupBit : Nat := 3
def noRecurseBit : Nat := 4
def detailedBit : Nat := 5
def actionBit : Nat := 6
def noHooksBit : Nat := 7
def hasClassClosureBit : Nat := 8
def trueStopsEmitBit : Nat := 9

instance : Row SignalRow where
  record := (word16.seq <| .seq word16 <| .seq word32 word32).imap
    (fun (flags, classClosure, name, signature) => ⟨flags, classClosure, name, signature⟩)
    (fun r => (r.flags, r.classClosure, r.name, r.signature))

end SignalRow

/-! ### Virtual functions -/

structure VFuncRow where
  name : UInt32
  flags : UInt16
  /-- Position of the signal that this is the default handler of. -/
  signal : UInt16
  structOffset : UInt16
  signature : UInt32
  deriving DecidableEq, Repr

namespace VFuncRow

def mustChainUpBit : Nat := 0
def mustBeImplementedBit : Nat := 1
def mustNotBeImplementedBit : Nat := 2
def classClosureBit : Nat := 3
def hasSignalBit : Nat := 4

instance : Row VFuncRow where
  record := (word32.seq <| .seq word16 <| .seq word16 <| .seq word16 <| .seq (filler 2) word32).imap
    (fun (name, flags, signal, structOffset, _, signature) =>
      ⟨name, flags, signal, structOffset, signature⟩)
    (fun r => (r.name, r.flags, r.signal, r.structOffset, (), r.signature))

end VFuncRow

/-! ### Signatures -/

structure ArgRow where
  name : UInt32
  flags : UInt16
  type : TypeRef
  deriving DecidableEq, Repr

namespace ArgRow

def inBit : Nat := 0
def outBit : Nat := 1
def dipperBit : Nat := 2
def nullOkBit : Nat := 3
def optionalBit : Nat := 4
def transferBit : Nat := 5
def transferContainerBit : Nat := 6
def returnValueBit : Nat := 7

instance : Row ArgRow where
  record := (word32.seq <| .seq word16 <| .seq (filler 2) TypeRef.record).imap
    (fun (name, flags, _, type) => ⟨name, flags, type⟩)
    (fun r => (r.name, r.flags, (), r.type))

end ArgRow

structure SignatureRow where
  returnType : TypeRef
  flags : UInt16
  argCount : UInt16
  deriving DecidableEq, Repr

namespace SignatureRow

def mayReturnNullBit : Nat := 0
def callerOwnsReturnBit : Nat := 1
def callerOwnsContainerBit : Nat := 2

instance : Row SignatureRow where
  record := (TypeRef.record.seq <| .seq word16 <| .seq word16 (filler 4)).imap
    (fun (returnType, flags, argCount, _) => ⟨returnType, flags, argCount⟩)
    (fun r => (r.returnType, r.flags, r.argCount, ()))

end SignatureRow

end Typelib
