import Typelib.Description.Ty

/-!
# Callables of a description

Functions, callbacks, signals and virtual functions, with their signatures, and how each is read.
-/

namespace Typelib

/-! ### Signatures -/

/-- What becomes of the ownership of a value that crosses a call. -/
inductive Transfer
  | none
  | container
  | full
  deriving DecidableEq, Repr

inductive Direction
  | input
  | output
  | inout
  deriving DecidableEq, Repr

/-- What a callable returns. -/
structure ReturnDecl where
  type : Ty
  mayReturnNull : Bool := false
  transfer : Transfer := .none
  deriving DecidableEq, Repr

structure ParamDecl where
  name : String
  type : Ty
  direction : Direction := .input
  nullOk : Bool := false
  optional : Bool := false
  /-- The caller allocates the value that is passed out. -/
  dipper : Bool := false
  /-- The parameter carries the value that the call returns. -/
  retval : Bool := false
  transfer : Transfer := .none
  deriving DecidableEq, Repr

/-- Parameters and result of a callable; no result means that nothing is returned. -/
structure Signature where
  result : Option ReturnDecl := none
  params : List ParamDecl := []
  deriving DecidableEq, Repr

/-! ### Callables -/

structure FunctionDecl where
  name : String
  deprecated : Bool := false
  /-- The linker symbol of the implementation. -/
  symbol : String
  method : Bool := false
  constructor : Bool := false
  getter : Bool := false
  setter : Bool := false
  /-- The virtual function of the owner that is invoked. -/
  wrapsVFunc : Option String := none
  /-- The property of the owner that is accessed. -/
  property : Option String := none
  signature : Signature := {}
  deriving DecidableEq, Repr

structure CallbackDecl where
  name : String
  deprecated : Bool := false
  signature : Signature := {}
  deriving DecidableEq, Repr

/-- When the handler of a signal runs. -/
inductive RunPhase
  | first
  | last
  | cleanup
  deriving DecidableEq, Repr

structure SignalDecl where
  name : String
  deprecated : Bool := false
  run : RunPhase := .last
  noRecurse : Bool := false
  detailed : Bool := false
  action : Bool := false
  noHooks : Bool := false
  trueStopsEmit : Bool := false
  /-- The virtual function of the owner that is the class closure. -/
  classClosure : Option String := none
  signature : Signature := {}
  deriving DecidableEq, Repr

structure VFuncDecl where
  name : String
  mustChainUp : Bool := false
  mustBeImplemented : Bool := false
  mustNotBeImplemented : Bool := false
  classClosure : Bool := false
  /-- The signal of the owner that this is the default handler of. -/
  signal : Option String := none
  structOffset : UInt16 := 0
  signature : Signature := {}
  deriving DecidableEq, Repr

/-! ### Reading -/

def Transfer.names : List (String × Transfer) :=
  [("none", .none), ("container", .container), ("full", .full)]

def Transfer.ofJson? : Json → Option Transfer := Json.choice? names

def Direction.names : List (String × Direction) :=
  [("in", .input), ("out", .output), ("inout", .inout)]

def Direction.ofJson? : Json → Option Direction := Json.choice? names

def RunPhase.ofJson? : Json → Option RunPhase :=
  Json.choice? [("first", .first), ("last", .last), ("cleanup", .cleanup)]

def ReturnDecl.ofJson? (j : Json) : Option ReturnDecl := do
  let fs ← j.fields? ["type", "may_return_null", "transfer"]
  return {
    type := ← Field.required fs "type" Ty.ofJson?
    mayReturnNull := ← Field.flag fs "may_return_null"
    transfer := ← Field.withDefault fs "transfer" .none Transfer.ofJson? }

def ParamDecl.ofJson? (j : Json) : Option ParamDecl := do
  let fs ← j.fields?
    ["name", "type", "direction", "null_ok", "optional", "dipper", "retval", "transfer"]
  return {
    name := ← Field.required fs "name" Json.string?
    type := ← Field.required fs "type" Ty.ofJson?
    direction := ← Field.withDefault fs "direction" .input Direction.ofJson?
    nullOk := ← Field.flag fs "null_ok"
    optional := ← Field.flag fs "optional"
    dipper := ← Field.flag fs "dipper"
    retval := ← Field.flag fs "retval"
    transfer := ← Field.withDefault fs "transfer" .none Transfer.ofJson? }

def Signature.ofJson? (j : Json) : Option Signature := do
  let fs ← j.fields? ["result", "params"]
  return {
    result := ← Field.optional fs "result" ReturnDecl.ofJson?
    params := ← Field.list fs "params" ParamDecl.ofJson? }

def FunctionDecl.ofJson? (j : Json) : Option FunctionDecl := do
  let fs ← j.fields? ["name", "deprecated", "symbol", "method", "constructor", "getter", "setter",
    "wraps_vfunc", "property", "signature"]
  return {
    name := ← Field.required fs "name" Json.string?
    deprecated := ← Field.flag fs "deprecated"
    symbol := ← Field.required fs "symbol" Json.string?
    method := ← Field.flag fs "method"
    constructor := ← Field.flag fs "constructor"
    getter := ← Field.flag fs "getter"
    setter := ← Field.flag fs "setter"
    wrapsVFunc := ← Field.optional fs "wraps_vfunc" Json.string?
    property := ← Field.optional fs "property" Json.string?
    signature := ← Field.withDefault fs "signature" {} Signature.ofJson? }

def CallbackDecl.ofJson? (j : Json) : Option CallbackDecl := do
  let fs ← j.fields? ["name", "deprecated", "signature"]
  return {
    name := ← Field.required fs "name" Json.string?
    deprecated := ← Field.flag fs "deprecated"
    signature := ← Field.withDefault fs "signature" {} Signature.ofJson? }

def SignalDecl.ofJson? (j : Json) : Option SignalDecl := do
  let fs ← j.fields? ["name", "deprecated", "run", "no_recurse", "detailed", "action", "no_hooks",
    "true_stops_emit", "class_closure", "signature"]
  return {
    name := ← Field.required fs "name" Json.string?
    deprecated := ← Field.flag fs "deprecated"
    run := ← Field.withDefault fs "run" .last RunPhase.ofJson?
    noRecurse := ← Field.flag fs "no_recurse"
    detailed := ← Field.flag fs "detailed"
    action := ← Field.flag fs "action"
    noHooks := ← Field.flag fs "no_hooks"
    trueStopsEmit := ← Field.flag fs "true_stops_emit"
    classClosure := ← Field.optional fs "class_closure" Json.string?
    signature := ← Field.withDefault fs "signature" {} Signature.ofJson? }

def VFuncDecl.ofJson? (j : Json) : Option VFuncDecl := do
  let fs ← j.fields? ["name", "must_chain_up", "must_be_implemented", "must_not_be_implemented",
    "class_closure", "signal", "struct_offset", "signature"]
  return {
    name := ← Field.required fs "name" Json.string?
    mustChainUp := ← Field.flag fs "must_chain_up"
    mustBeImplemented := ← Field.flag fs "must_be_implemented"
    mustNotBeImplemented := ← Field.flag fs "must_not_be_implemented"
    classClosure := ← Field.flag fs "class_closure"
    signal := ← Field.optional fs "signal" Json.string?
    structOffset := ← Field.withDefault fs "struct_offset" 0 Json.uint16?
    signature := ← Field.withDefault fs "signature" {} Signature.ofJson? }

end Typelib
