import Typelib.Binary.TypeRef

/-!
# Rows of registered types

Enumerations, structures, unions, objects and interfaces begin with a common `RegisteredHead` and
tell how many rows of each kind of member follow. Error domains stand beside them.
-/

namespace Typelib

open Record

structure ErrorDomainRow where
  kind : UInt16
  flags : UInt16
  name : UInt32
  getQuark : UInt32
  /-- The enumeration of the codes, as a raw `DirRef`. -/
  errorCodes : UInt16
  deriving DecidableEq, Repr

namespace ErrorDomainRow

def deprecatedBit : Nat := 0

instance : Row ErrorDomainRow where
  record := (word16.seq <| .seq word16 <| .seq word32 <| .seq word32 <| .seq word16 (filler 2)).imap
    (fun (kind, flags, name, getQuark, errorCodes, _) => ⟨kind, flags, name, getQuark, errorCodes⟩)
    (fun r => (r.kind, r.flags, r.name, r.getQuark, r.errorCodes, ()))

end ErrorDomainRow

/-! ### The common head -/

/-- What the rows of all registered types begin with. -/
structure RegisteredHead where
  kind : UInt16
  flags : UInt16
  name : UInt32
  gtypeName : UInt32
  gtypeInit : UInt32
  deriving DecidableEq, Repr

namespace RegisteredHead

def deprecatedBit : Nat := 0
def unregisteredBit : Nat := 1
def discriminatedBit : Nat := 2

def record : Record RegisteredHead :=
  (word16.seq <| .seq word16 <| .seq word32 <| .seq word32 word32).imap
    (fun (kind, flags, name, gtypeName, gtypeInit) => ⟨kind, flags, name, gtypeName, gtypeInit⟩)
    (fun r => (r.kind, r.flags, r.name, r.gtypeName, r.gtypeInit))

end RegisteredHead

/-! ### Rows with members -/

structure EnumRow where
  head : RegisteredHead
  valueCount : UInt16
  deriving DecidableEq, Repr

instance : Row EnumRow where
  record := (RegisteredHead.record.seq <| .seq word16 (filler 2)).imap
    (fun (head, valueCount, _) => ⟨head, valueCount⟩)
    (fun r => (r.head, r.valueCount, ()))

structure StructRow where
  head : RegisteredHead
  fieldCount : UInt16
  methodCount : UInt16
  deriving DecidableEq, Repr

instance : Row StructRow where
  record := (RegisteredHead.record.seq <| .seq word16 word16).imap
    (fun (head, fieldCount, methodCount) => ⟨head, fieldCount, methodCount⟩)
    (fun r => (r.head, r.fieldCount, r.methodCount))

structure UnionRow where
  head : RegisteredHead
  fieldCount : UInt16
  functionCount : UInt16
  discriminatorCount : UInt16
  discriminatorOffset : Int32
  /-- All zero for a union without a discriminator. -/
  discriminatorType : TypeRef
  deriving DecidableEq, Repr

instance : Row UnionRow where
  record := (RegisteredHead.record.seq <| .seq word16 <| .seq word16 <| .seq word16 <|
    .seq (filler 2) <| .seq int32 TypeRef.record).imap
    (fun (head, fieldCount, functionCount, discriminatorCount, _, offset, type) =>
      ⟨head, fieldCount, functionCount, discriminatorCount, offset, type⟩)
    (fun r => (r.head, r.fieldCount, r.functionCount, r.discriminatorCount, (),
      r.discriminatorOffset, r.discriminatorType))

structure ObjectRow where
  head : RegisteredHead
  /-- The parent class, as a raw `DirRef`. -/
  parent : UInt16
  interfaceCount : UInt16
  fieldCount : UInt16
  propertyCount : UInt16
  methodCount : UInt16
  signalCount : UInt16
  vfuncCount : UInt16
  constantCount : UInt16
  deriving DecidableEq, Repr

instance : Row ObjectRow where
  record := (RegisteredHead.record.seq <| .seq word16 <| .seq word16 <| .seq word16 <|
    .seq word16 <| .seq word16 <| .seq word16 <| .seq word16 <| .seq word16 (filler 4)).imap
    (fun (head, parent, interfaces, fields, properties, methods, signals, vfuncs, constants, _) =>
      ⟨head, parent, interfaces, fields, properties, methods, signals, vfuncs, constants⟩)
    (fun r => (r.head, r.parent, r.interfaceCount, r.fieldCount, r.propertyCount, r.methodCount,
      r.signalCount, r.vfuncCount, r.constantCount, ()))

structure InterfaceRow where
  head : RegisteredHead
  prerequisiteCount : UInt16
  propertyCount : UInt16
  methodCount : UInt16
  signalCount : UInt16
  vfuncCount : UInt16
  constantCount : UInt16
  deriving DecidableEq, Repr

instance : Row InterfaceRow where
  record := (RegisteredHead.record.seq <| .seq word16 <| .seq word16 <| .seq word16 <|
    .seq word16 <| .seq word16 <| .seq word16 (filler 4)).imap
    (fun (head, prerequisites, properties, methods, signals, vfuncs, constants, _) =>
      ⟨head, prerequisites, properties, methods, signals, vfuncs, constants⟩)
    (fun r => (r.head, r.prerequisiteCount, r.propertyCount, r.methodCount, r.signalCount,
      r.vfuncCount, r.constantCount, ()))

end Typelib
