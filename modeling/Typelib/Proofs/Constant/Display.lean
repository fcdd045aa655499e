import Typelib.Proofs.Constant.Integer
import Typelib.Proofs.Text.Cut

/-!
# Constants are shown as what they stand for

A literal stands for a truth value, a whole number, a string or just its text, depending on its type.
The literals that are taken are those that stand for something, and the bytes of a constant are shown
as what its literal stands for. Floating-point types are left out here.

* `Literal.Denotes`: what a literal stands for;
* `encode_denotes`: which constants have bytes, and how these are shown.
-/

namespace Typelib

/-- What a literal may stand for. -/
inductive Denoted
  | truth (b : Bool)
  | number (n : Int)
  | string (s : String)
  | text (s : String)

/-- How a value is shown. A file holds no more of a text than comes in front of its first NUL. -/
def Denoted.Shown : Denoted → String → Prop
  | truth b, shown => shown = if b then "true" else "false"
  | number n, shown => Decimal.Standard shown.toList n
  | string s, shown => shown = Text.quoted (Text.cut s)
  | text s, shown => shown = Text.cut s

/-- The words for a truth value. -/
def Literal.truthWords : Bool → List String
  | true => ["true", "TRUE", "1"]
  | false => ["false", "FALSE", "0"]

/-- What a literal of a type stands for. Only strings keep the blanks around them. -/
inductive Literal.Denotes (value : String) : TypeTag → Denoted → Prop
  | truth {b : Bool} : Text.trim value ∈ truthWords b → Denotes value (.scalar .boolean) (.truth b)
  | number {kind : Scalar} {signed : Bool} {bits : Nat} {n : Int} :
      kind.integer? = some (signed, bits) → Decimal.Numeral signed (Text.trim value).toList n →
      InRange signed bits n → Denotes value (.scalar kind) (.number n)
  | string {kind : Scalar} : kind = .utf8 ∨ kind = .filename →
      Denotes value (.scalar kind) (.string value)
  | text {tag : TypeTag} : tag = .scalar .void ∨ tag.isBasic = false →
      Denotes value tag (.text (Text.trim value))

variable {c : ConstantDecl} {bytes : List UInt8} {v : Denoted}

/-! ### Texts -/

theorem Text.ofBytes_toBytes (s : String) : ofBytes (toBytes s) = s := by
  rw [ofBytes, ofBytes?_toBytes]

/-- Of a stored text, the part in front of its first NUL is shown. -/
theorem Value.text_nulTerminated (s : String) : Value.text (nulTerminated s) = Text.cut s := by
  obtain ⟨rest, hs, hall⟩ := Text.nulTerminated_eq s
  have hzero : (nulTerminated s).takeWhile (· != 0) = Text.toBytes (Text.cut s) := by
    rw [hs, List.takeWhile_append_of_pos (by simpa using hall)]
    simp
  rw [Value.text, hzero, Text.ofBytes_toBytes]

theorem Value.format_of_string {kind : Scalar} (h : kind = .utf8 ∨ kind = .filename)
    (bytes : List UInt8) :
    Value.format (some (.scalar kind)) bytes = Text.quoted (Value.text bytes) := by
  rcases h with rfl | rfl <;> rfl

theorem Value.format_of_text {tag : TypeTag} (h : tag = .scalar .void ∨ tag.isBasic = false)
    (bytes : List UInt8) : Value.format (some tag) bytes = Value.text bytes := by
  rcases h with rfl | h
  · rfl
  · cases tag with
    | scalar => cases h
    | _ => rfl

/-! ### Constants -/

/-- The bytes of a literal, if it is taken. -/
def Literal.encoded? (value : String) : TypeTag → Option (List UInt8)
  | .scalar kind => bytes? kind value
  | _ => some (nulTerminated (Text.trim value))

theorem Literal.encoded?_scalar (kind : Scalar) (value : String) :
    encoded? value (.scalar kind) = bytes? kind value := rfl

theorem Literal.encoded?_of_text {tag : TypeTag} (h : tag = .scalar .void ∨ tag.isBasic = false)
    (value : String) : encoded? value tag = some (nulTerminated (Text.trim value)) := by
  rcases h with rfl | h
  · rfl
  · cases tag with
    | scalar => cases h
    | _ => rfl

theorem encode_eq (c : ConstantDecl) :
    c.encode = match Literal.encoded? c.value c.type.tag with
      | some bytes => .ok bytes
      | none => .error (.invalidConstant c.name c.type.tag c.value) := by
  unfold ConstantDecl.encode
  cases c.type.tag <;> rfl

theorem encode_eq_ok_iff :
    c.encode = .ok bytes ↔ Literal.encoded? c.value c.type.tag = some bytes := by
  rw [encode_eq]
  cases Literal.encoded? c.value c.type.tag <;> simp

theorem Literal.boolean?_eq_some_iff {text : String} {b : Bool} :
    boolean? text = some b ↔ text ∈ truthWords b := by
  unfold boolean?
  split
  next h =>
    cases b with
    | true => simpa [truthWords] using h
    | false => rcases h with rfl | rfl | rfl <;> decide
  next htrue =>
    split
    next h =>
      cases b with
      | true => rcases h with rfl | rfl | rfl <;> decide
      | false => simpa [truthWords] using h
    next hfalse => cases b <;> simp_all [truthWords]

theorem Literal.bytes?_boolean {value : String} : bytes? .boolean value = some bytes ↔
    ∃ b : Bool, Text.trim value ∈ truthWords b ∧ bytes = leBytes 4 b.toNat := by
  rw [bytes?, Option.map_eq_some_iff]
  exact exists_congr fun b => and_congr boolean?_eq_some_iff eq_comm

/-- A literal that stands for something has bytes, and these are shown as that. -/
theorem Literal.Denotes.encoded {value : String} {tag : TypeTag} (h : Denotes value tag v) :
    ∃ bytes, encoded? value tag = some bytes ∧ v.Shown (Value.format (some tag) bytes) := by
  cases h with
  | @truth b h =>
    refine ⟨leBytes 4 b.toNat, ?_, ?_⟩
    · rw [encoded?_scalar]
      exact bytes?_boolean.2 ⟨b, h, rfl⟩
    · cases b <;> rfl
  | @number kind signed bits n hk hn hr =>
    obtain ⟨width, rfl, hw⟩ := Scalar.words hk
    refine ⟨leBytes width (n % byteSpan width).toNat, ?_, ?_⟩
    · rw [encoded?_scalar, hw.bytes]
      exact (integerBytes?_eq_some_iff hw.pos).2 ⟨n, hn, hr, rfl⟩
    · rw [Denoted.Shown, Value.format, hw.shown hr]
      exact Decimal.standard_iff.2 rfl
  | string h =>
    refine ⟨nulTerminated value, ?_, ?_⟩
    · rcases h with rfl | rfl <;> rfl
    · rw [Value.format_of_string h, Value.text_nulTerminated, Denoted.Shown]
  | text h =>
    refine ⟨nulTerminated (Text.trim value), encoded?_of_text h value, ?_⟩
    rw [Value.format_of_text h, Value.text_nulTerminated, Denoted.Shown]

/-- Apart from floating-point types, a literal that has bytes stands for something. -/
theorem Literal.exists_denotes {value : String} {tag : TypeTag} (hfloat : tag ≠ .scalar .float)
    (hdouble : tag ≠ .scalar .double) (h : encoded? value tag = some bytes) :
    ∃ v, Denotes value tag v := by
  cases tag with
  | scalar kind =>
    rw [encoded?_scalar] at h
    cases hk : kind.integer? with
    | some p =>
      obtain ⟨width, hbits, hw⟩ := Scalar.words hk
      rw [hw.bytes] at h
      obtain ⟨n, hn, hr, -⟩ := (integerBytes?_eq_some_iff hw.pos).1 h
      exact ⟨_, .number hk hn (hbits ▸ hr)⟩
    | none =>
      cases kind with
      | void => exact ⟨_, .text (.inl rfl)⟩
      | boolean =>
        obtain ⟨b, hb, -⟩ := bytes?_boolean.1 h
        exact ⟨_, .truth hb⟩
      | float => exact absurd rfl hfloat
      | double => exact absurd rfl hdouble
      | utf8 => exact ⟨_, .string (.inl rfl)⟩
      | filename => exact ⟨_, .string (.inr rfl)⟩
      | _ => cases hk
  | _ => exact ⟨_, .text (.inr rfl)⟩

/-- **Constants are exact.** A constant of any but a floating-point type has bytes if and only if its
literal stands for something, and its bytes are shown as what the literal stands for. -/
theorem encode_denotes (c : ConstantDecl) (hfloat : c.type.tag ≠ .scalar .float)
    (hdouble : c.type.tag ≠ .scalar .double) :
    ((∃ bytes, c.encode = .ok bytes) ↔ ∃ v, Literal.Denotes c.value c.type.tag v) ∧
      ∀ v bytes, Literal.Denotes c.value c.type.tag v → c.encode = .ok bytes →
        v.Shown (Value.format (some c.type.tag) bytes) := by
  simp only [encode_eq_ok_iff]
  refine ⟨⟨fun ⟨bytes, h⟩ => Literal.exists_denotes hfloat hdouble h, fun ⟨v, hv⟩ => ?_⟩,
    fun v bytes hv h => ?_⟩
  · obtain ⟨bytes, h, -⟩ := hv.encoded
    exact ⟨bytes, h⟩
  · obtain ⟨bytes', h', hshown⟩ := hv.encoded
    rw [h] at h'
    cases h'
    exact hshown

/-- The least number of a byte, with zeros in front and blanks around it, is shown without these. -/
theorem encode_denotes_sample : ∃ bytes,
    ({ name := "K", type := .scalar .int8 false, value := " -00128 " } : ConstantDecl).encode =
      .ok bytes ∧ Value.format (some (.scalar .int8)) bytes = "-128" := by
  have hdigits : Decimal.Digits ['0', '0', '1', '2', '8'] 128 :=
    ⟨by decide, List.all_eq_true.1 (by decide), by decide⟩
  have hnumeral : Decimal.Numeral true (Text.trim " -00128 ").toList (-128) := by
    have hliteral : (Text.trim " -00128 ").toList = ['-', '0', '0', '1', '2', '8'] := by
      decide +kernel
    rw [hliteral]
    exact .minus rfl hdigits
  have hv : Literal.Denotes " -00128 " (.scalar .int8) (.number (-128)) :=
    .number rfl hnumeral (by decide)
  obtain ⟨haccepts, hshows⟩ := encode_denotes
    { name := "K", type := .scalar .int8 false, value := " -00128 " } (by decide) (by decide)
  obtain ⟨bytes, h⟩ := haccepts.2 ⟨_, hv⟩
  have hshown := Decimal.standard_iff.1 (hshows _ _ hv h)
  exact ⟨bytes, h, String.toList_inj.1 hshown⟩

end Typelib
