/-!
# Text and bytes

Text is kept as UTF-8. `Text.toBytes` writes it; `Text.ofBytes?` reads it and refuses bytes that are
not UTF-8; `Text.ofBytes` puts a replacement character for each longest piece that begins like a
character but is none.
-/

namespace Typelib.Text

/-- The bytes that encode a text. -/
def toBytes (s : String) : List UInt8 := s.toUTF8.data.toList

/-- The text that bytes encode. -/
def ofBytes? (bytes : Array UInt8) : Option String := String.fromUTF8? ⟨bytes⟩

/-- What stands for bytes that encode nothing. -/
def replacement : Char := '\ufffd'

/-- The byte continues a character. -/
def isContinuation (b : UInt8) : Bool := 0x80 ≤ b && b ≤ 0xBF

/-- The byte may follow the first byte of a character of three bytes. -/
def isSecondOfThree (b₀ b₁ : UInt8) : Bool :=
  isContinuation b₁ && (b₀ != 0xE0 || 0xA0 ≤ b₁) && (b₀ != 0xED || b₁ ≤ 0x9F)

/-- The byte may follow the first byte of a character of four bytes. -/
def isSecondOfFour (b₀ b₁ : UInt8) : Bool :=
  isContinuation b₁ && (b₀ != 0xF0 || 0x90 ≤ b₁) && (b₀ != 0xF4 || b₁ ≤ 0x8F)

/-- The bits that a byte adds to the code point of a character. -/
def payload (b : UInt8) (mask : UInt8) : Nat := (b &&& mask).toNat

/-- Reads bytes with replacements; the characters read so far come last first. -/
def lossyLoop (acc : List Char) : List UInt8 → List Char
  | [] => acc.reverse
  | b₀ :: bs =>
    if b₀ < 0x80 then lossyLoop (Char.ofNat b₀.toNat :: acc) bs
    else if 0xC2 ≤ b₀ ∧ b₀ ≤ 0xDF then
      match bs with
      | b₁ :: bs₁ =>
        if isContinuation b₁ then
          lossyLoop (Char.ofNat (payload b₀ 0x1F * 64 + payload b₁ 0x3F) :: acc) bs₁
        else lossyLoop (replacement :: acc) (b₁ :: bs₁)
      | [] => lossyLoop (replacement :: acc) []
    else if 0xE0 ≤ b₀ ∧ b₀ ≤ 0xEF then
      match bs with
      | b₁ :: bs₁ =>
        if isSecondOfThree b₀ b₁ then
          match bs₁ with
          | b₂ :: bs₂ =>
            if isContinuation b₂ then
              lossyLoop (Char.ofNat ((payload b₀ 0x0F * 64 + payload b₁ 0x3F) * 64 +
                payload b₂ 0x3F) :: acc) bs₂
            else lossyLoop (replacement :: acc) (b₂ :: bs₂)
          | [] => lossyLoop (replacement :: acc) []
        else lossyLoop (replacement :: acc) (b₁ :: bs₁)
      | [] => lossyLoop (replacement :: acc) []
    else if 0xF0 ≤ b₀ ∧ b₀ ≤ 0xF4 then
      match bs with
      | b₁ :: bs₁ =>
        if isSecondOfFour b₀ b₁ then
          match bs₁ with
          | b₂ :: bs₂ =>
            if isContinuation b₂ then
              match bs₂ with
              | b₃ :: bs₃ =>
                if isContinuation b₃ then
                  lossyLoop (Char.ofNat (((payload b₀ 0x07 * 64 + payload b₁ 0x3F) * 64 +
                    payload b₂ 0x3F) * 64 + payload b₃ 0x3F) :: acc) bs₃
                else lossyLoop (replacement :: acc) (b₃ :: bs₃)
              | [] => lossyLoop (replacement :: acc) []
            else lossyLoop (replacement :: acc) (b₂ :: bs₂)
          | [] => lossyLoop (replacement :: acc) []
        else lossyLoop (replacement :: acc) (b₁ :: bs₁)
      | [] => lossyLoop (replacement :: acc) []
    else lossyLoop (replacement :: acc) bs

/-- The text that bytes encode, with replacements where they encode nothing. -/
def ofBytes (bytes : List UInt8) : String :=
  match ofBytes? bytes.toArray with
  | some s => s
  | none => String.ofList (lossyLoop [] bytes)

end Typelib.Text
