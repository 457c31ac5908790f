import Linework.Text.Encoding

/-!
# Names as bytes

A host keeps names as bytes, and shows them in UTF-8. A byte that is no part of a character is shown as a
surrogate, and is written as that again. So a name is listed as it was given, unless surrogates in it
spell out a character.
-/

namespace Linework

namespace CodePoint

/-- The surrogate for a byte that is no part of a character. -/
def ofByte (b : UInt8) : CodePoint := surrogate ⟨0x400 + b.toNat, by have := b.toNat_lt; omega⟩

/-- The bytes of a character in a name. -/
def hostBytes : CodePoint → List UInt8
  | scalar c => String.utf8EncodeChar c
  | surrogate n => [UInt8.ofNat (0x80 + n % 0x80)]

end CodePoint

namespace Text

/-- The bytes of a name. -/
def hostBytes (name : Text) : List UInt8 := name.flatMap CodePoint.hostBytes

/-- The name that bytes are shown as; `skip` bytes belong to the character read last. -/
def ofHostBytes : (skip : Nat) → List UInt8 → Text
  | _, [] => []
  | skip + 1, _ :: rest => ofHostBytes skip rest
  | 0, a :: rest =>
    match Encoding.readUtf8 a rest with
    | .ok (code, extra) => CodePoint.ofNat code :: ofHostBytes extra rest
    | .error _ => CodePoint.ofByte a :: ofHostBytes 0 rest

/-- A name as it is listed once it was given. -/
def listed (name : Text) : Text := ofHostBytes 0 name.hostBytes

end Text

end Linework
