import Typelib.Proofs.Constant.Display

/-!
# Constants have the width of their type

The types of constants that are words have a width, and their constants have so many bytes. Types
without a width keep the text of the literal. A constant without a value, of the type `void`, does
both: its type has a width of no bytes, and yet its text is kept.

* `Literal.length_bytes?`: the words;
* `encode_width`: the bytes of a constant, by the width of its type.
-/

namespace Typelib

variable {c : ConstantDecl} {bytes : List UInt8} {kind : Scalar} {value : String} {width n : Nat}

/-- The text of a literal that is kept where there is no word for it. Strings keep the blanks. -/
def Literal.keptText (tag : TypeTag) (value : String) : String :=
  if tag = .scalar .utf8 ∨ tag = .scalar .filename then value else Text.trim value

/-! ### Words -/

theorem Literal.length_integerBytes? {signed : Bool} {text : String} (hpos : 0 < width)
    (h : integerBytes? signed width text = some bytes) : bytes.length = width := by
  obtain ⟨_, -, -, rfl⟩ := (integerBytes?_eq_some_iff hpos).1 h
  exact length_leBytes width _

theorem Literal.length_of_map_leBytes {word : Option Nat} (h : word.map (leBytes width) = some bytes) :
    bytes.length = width := by
  obtain ⟨_, -, rfl⟩ := Option.map_eq_some_iff.1 h
  exact length_leBytes width _

/-- The width of an integer type is that of its words. -/
theorem Scalar.valueSize_of_integer? {signed : Bool} {bits : Nat}
    (h : kind.integer? = some (signed, bits)) : kind.valueSize = some (bits / 8) := by
  cases kind <;> cases h <;> rfl

/-- A literal of a type that has words takes as many bytes as a word. -/
theorem Literal.length_bytes? (h : bytes? kind value = some bytes)
    (hn : kind.valueSize = some n) (hvoid : kind ≠ .void) : bytes.length = n := by
  cases hk : kind.integer? with
  | some p =>
    obtain ⟨width, hbits, hw⟩ := Scalar.words hk
    have hsize := Scalar.valueSize_of_integer? hk
    rw [hn, hbits, Nat.mul_div_cancel_left width (by decide : 0 < 8)] at hsize
    cases hsize
    rw [hw.bytes] at h
    exact length_integerBytes? hw.pos h
  | none =>
    cases kind with
    | void => exact absurd rfl hvoid
    | boolean =>
      cases hn
      obtain ⟨b, -, rfl⟩ := bytes?_boolean.1 h
      exact length_leBytes 4 _
    | float | double =>
      cases hn
      simp only [bytes?] at h
      exact length_of_map_leBytes h
    | utf8 | filename => cases hn
    | _ => cases hk

/-! ### Texts -/

/-- A type without a width, and the type without a value, keep the text of a literal. -/
theorem Literal.encoded?_eq_text {tag : TypeTag}
    (h : tag.valueSize = none ∨ tag = .scalar .void) :
    encoded? value tag = some (nulTerminated (keptText tag value)) := by
  cases tag with
  | scalar kind =>
    cases kind with
    | void | utf8 | filename => rfl
    | _ => simp [TypeTag.valueSize, Scalar.valueSize] at h
  | _ => rfl

theorem length_nulTerminated_pos (s : String) : 0 < (nulTerminated s).length := by
  simp [nulTerminated]

/-- **Constants have the width of their type.** A constant of a type with a width has so many bytes,
and one of a type without a width is its text with a zero byte behind it. The type `void` alone has a
width that is not that of its constants, which are texts too. -/
theorem encode_width (h : c.encode = .ok bytes) :
    (∀ n, c.type.tag.valueSize = some n → (bytes.length = n ↔ c.type.tag ≠ .scalar .void)) ∧
    (c.type.tag.valueSize = none → bytes = nulTerminated (Literal.keptText c.type.tag c.value)) := by
  rw [encode_eq_ok_iff] at h
  refine ⟨fun n hn => ?_, fun hnone => ?_⟩
  · by_cases hvoid : c.type.tag = .scalar .void
    · rw [Literal.encoded?_eq_text (.inr hvoid)] at h
      rw [hvoid] at hn
      cases hn
      cases h
      have hpos := length_nulTerminated_pos (Literal.keptText c.type.tag c.value)
      exact iff_of_false (Nat.ne_of_gt hpos) fun hne => hne hvoid
    · refine iff_of_true ?_ hvoid
      cases htag : c.type.tag with
      | scalar kind =>
        rw [htag] at h hn hvoid
        exact Literal.length_bytes? h hn fun hk => hvoid (congrArg _ hk)
      | _ =>
        rw [htag] at hn
        cases hn
  · rw [Literal.encoded?_eq_text (.inl hnone)] at h
    exact (Option.some.inj h).symm

/-- A pointer to a word is a word too. -/
theorem encode_width_sample : ∃ bytes,
    ({ name := "K", type := .scalar .uint16 true, value := "258" } : ConstantDecl).encode =
      .ok bytes ∧ bytes.length = 2 := by
  have h : ({ name := "K", type := .scalar .uint16 true, value := "258" } : ConstantDecl).encode =
      .ok [2, 1] := encode_eq_ok_iff.2 (by decide +kernel)
  exact ⟨[2, 1], h, ((encode_width h).1 2 rfl).2 (by decide)⟩

/-- A constant without a value has bytes, though its type has no room for any. -/
theorem void_constant_has_bytes :
    (TypeTag.scalar .void).valueSize = some 0 ∧
      ({ name := "K", type := .scalar .void false, value := "x" } : ConstantDecl).encode =
        .ok [0x78, 0] :=
  ⟨rfl, encode_eq_ok_iff.2 (by decide +kernel)⟩

end Typelib
