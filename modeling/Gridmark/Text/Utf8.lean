import Gridmark.Text.Basic
/-!
# Utf8 — texts from bytes

Bytes are taken apart into characters and, where they are no UTF-8, into pieces as long as the beginning of a character.
A strict reader refuses a text with such pieces, a lenient one puts U+FFFD for each.
-/
namespace Gridmark

/-- The contents of a file. -/
abbrev Bytes := List UInt8

namespace Utf8

/-- A character of several bytes that has begun: its bits so far, the number of bytes to come, and the bounds of the next
one. -/
structure Begun where
  bits : Nat
  missing : Nat
  low : Nat
  high : Nat

/-- What a byte at the start of a character makes: a character, none, or a beginning. -/
def first (b : Nat) : Option Char ⊕ Begun :=
  if b < 0x80 then .inl (some (Char.ofNat b))
  else if b < 0xC2 then .inl none
  else if b < 0xE0 then .inr ⟨b - 0xC0, 1, 0x80, 0xBF⟩
  else if b = 0xE0 then .inr ⟨0, 2, 0xA0, 0xBF⟩
  else if b = 0xED then .inr ⟨0xD, 2, 0x80, 0x9F⟩
  else if b < 0xF0 then .inr ⟨b - 0xE0, 2, 0x80, 0xBF⟩
  else if b = 0xF0 then .inr ⟨0, 3, 0x90, 0xBF⟩
  else if b < 0xF4 then .inr ⟨b - 0xF0, 3, 0x80, 0xBF⟩
  else if b = 0xF4 then .inr ⟨4, 3, 0x80, 0x8F⟩
  else .inl none

/-- The characters of bytes from within or between characters on, `none` standing for what is no character. -/
def decode : Option Begun → Bytes → List (Option Char)
  | none, [] => []
  | some _, [] => [none]
  | none, b :: bs =>
    match first b.toNat with
    | .inl c => c :: decode none bs
    | .inr s => decode (some s) bs
  | some s, b :: bs =>
    if s.low ≤ b.toNat ∧ b.toNat ≤ s.high then
      let bits := s.bits * 64 + (b.toNat - 0x80)
      if s.missing ≤ 1 then some (Char.ofNat bits) :: decode none bs
      else decode (some ⟨bits, s.missing - 1, 0x80, 0xBF⟩) bs
    else
      match first b.toNat with
      | .inl c => none :: c :: decode none bs
      | .inr s => none :: decode (some s) bs

end Utf8

namespace Text

def ofUtf8? (bs : Bytes) : Option Text := (Utf8.decode none bs).mapM id

/-- The text of bytes, with a replacement character for each piece that encodes none. -/
def ofUtf8Lenient (bs : Bytes) : Text := (Utf8.decode none bs).map fun c => c.getD '\uFFFD'

end Text
end Gridmark
