import Linework.Text.Quoted

/-!
# Codecs

How texts become bytes and bytes texts. A codec is found by a name, and refuses a text that it has
no bytes for, or bytes that are no text to it. Which codecs there are is up to the host.
-/

namespace Linework

/-- A refusal by a codec, with the half open range of positions at fault, or only in words. -/
inductive CodecFault where
  | unencodable (codec : Text) (char : CodePoint) (start stop : Nat) (reason : Text)
  | undecodable (codec : Text) (byte : UInt8) (start stop : Nat) (reason : Text)
  | other (message : Text)
  deriving DecidableEq, Repr

namespace CodecFault

/-- `5` for one position and `5-7` for several. -/
def positions (start stop : Nat) : Text :=
  if stop = start + 1 then Text.ofNat 10 start
  else Text.ofNat 10 start ++ Text.lit "-" ++ Text.ofNat 10 (stop - 1)

def message : CodecFault → Text
  | unencodable codec char start stop reason =>
    Text.lit "'" ++ codec ++ Text.lit "' codec can't encode " ++
    (if stop = start + 1 then
      Text.lit "character '" ++ Text.escapedCode char.toNat ++ Text.lit "' in position "
    else Text.lit "characters in position ") ++
    positions start stop ++ Text.lit ": " ++ reason
  | undecodable codec byte start stop reason =>
    Text.lit "'" ++ codec ++ Text.lit "' codec can't decode " ++
    (if stop = start + 1 then
      Text.lit "byte 0x" ++ Text.zeroFill 2 (Text.ofNat 16 byte.toNat) ++ Text.lit " in position "
    else Text.lit "bytes in position ") ++
    positions start stop ++ Text.lit ": " ++ reason
  | other message => message

end CodecFault

/-- A way to write text as bytes and to read it. Nothing is said here of how the two fit together. -/
structure Codec where
  /-- The bytes of a file that holds a text. -/
  encode : Text → Except CodecFault (List UInt8)
  /-- The text of a file. -/
  decode : List UInt8 → Except CodecFault Text

/-- The codecs by their names. A name without one is refused in words. -/
abbrev Codecs := Text → Except Text Codec

/-- What a codec has written is read again as it was, and an empty file is empty to it. -/
structure Codec.Faithful (codec : Codec) : Prop where
  decode_encode {t : Text} {bytes : List UInt8} : codec.encode t = .ok bytes → codec.decode bytes = .ok t
  decode_nil : codec.decode [] = .ok []

end Linework
