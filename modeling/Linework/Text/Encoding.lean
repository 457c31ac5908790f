import Linework.Text.Codec

/-!
# Encodings

The codecs at hand. An encoding is found by its name, with case and punctuation ignored; a text
that has no bytes, or bytes that are no text, are refused with the place of the first fault. A host
may have others: names that are not in the table are unknown to these codecs only.
-/

namespace Linework

/-- A way to write text as bytes. -/
inductive Encoding where
  | utf8
  /-- With a byte order mark at the start of the file. -/
  | utf8Marked
  | latin1
  | ascii
  | utf16le
  deriving DecidableEq, Repr

/-- Why bytes are no text in an encoding. -/
inductive ByteFault where
  | invalidStart
  | invalidContinuation
  | unexpectedEnd
  | ordinal (limit : Nat)
  | truncated
  | loneLowSurrogate
  | loneHighSurrogate
  deriving DecidableEq, Repr

namespace ByteFault

def message : ByteFault → Text
  | invalidStart => Text.lit "invalid start byte"
  | invalidContinuation => Text.lit "invalid continuation byte"
  | unexpectedEnd => Text.lit "unexpected end of data"
  | ordinal limit => Text.lit "ordinal not in range(" ++ Text.ofNat 10 limit ++ ([')'] : Text)
  | truncated => Text.lit "truncated data"
  | loneLowSurrogate => Text.lit "illegal encoding"
  | loneHighSurrogate => Text.lit "illegal UTF-16 surrogate"

end ByteFault

namespace Encoding

/-- The names an encoding answers to, in their plain form. -/
def names : List (Encoding × List String) :=
  [(utf8, ["utf_8", "utf8", "u8", "utf", "utf8_ucs2", "utf8_ucs4", "cp65001"]),
   (utf8Marked, ["utf_8_sig"]),
   (latin1, ["latin_1", "latin1", "latin", "l1", "8859", "cp819", "csisolatin1", "ibm819", "iso8859",
     "iso8859_1", "iso_8859_1", "iso_8859_1_1987", "iso_ir_100"]),
   (ascii, ["ascii", "us_ascii", "us", "646", "ansi_x3.4_1968", "ansi_x3_4_1968", "ansi_x3.4_1986",
     "cp367", "csascii", "ibm367", "iso646_us", "iso_646.irv_1991", "iso_ir_6"]),
   (utf16le, ["utf_16_le", "utf_16le", "unicodelittleunmarked"])]

/-- Lower case, with each run of punctuation inside the name as one underscore. -/
def plainName (name : Text) : Text :=
  let keeps (c : CodePoint) : Bool := c.isAlphanum || c == '.'
  let words := (Text.pieces (fun c => !keeps c) (name.map CodePoint.toLower)).filter (· ≠ [])
  List.intercalate ['_'] words

/-- The encoding a name stands for; names of codecs that are not in the table stand for none. -/
def ofName? (name : Text) : Option Encoding :=
  (names.find? fun entry => entry.2.any fun known => Text.lit known == plainName name).map (·.1)

/-- The name an encoding gives in its refusals. -/
def label : Encoding → Text
  | utf8 | utf8Marked => Text.lit "utf-8"
  | latin1 => Text.lit "latin-1"
  | ascii => Text.lit "ascii"
  | utf16le => Text.lit "utf-16-le"

/-- The mark that opens a marked file. -/
def byteOrderMark : List UInt8 := [0xEF, 0xBB, 0xBF]

def isContinuation (b : UInt8) : Bool := 0x80 ≤ b && b < 0xC0

/-- Whether `b` may follow the lead byte `a`: no overlong forms, no surrogates, no code point
past the last. -/
def mayFollow (a b : UInt8) : Bool :=
  isContinuation b && (a != 0xE0 || 0xA0 ≤ b) && (a != 0xED || b < 0xA0) &&
    (a != 0xF0 || 0x90 ≤ b) && (a != 0xF4 || b < 0x90)

/-- Six bits more. -/
def shifted (code : Nat) (b : UInt8) : Nat := code * 64 + (b.toNat - 0x80)

/-- Reads one character: its code point and the number of bytes after the first, or the
number of bytes at fault (none when the fault reaches the end) and the reason. -/
def readUtf8 (a : UInt8) (rest : List UInt8) : Except (Option Nat × ByteFault) (Nat × Nat) :=
  if a < 0x80 then .ok (a.toNat, 0)
  else if a < 0xC2 || 0xF5 ≤ a then .error (some 1, .invalidStart)
  else match rest with
    | [] => .error (none, .unexpectedEnd)
    | b :: more =>
      if !mayFollow a b then .error (some 1, .invalidContinuation)
      else if a < 0xE0 then .ok (shifted (a.toNat - 0xC0) b, 1)
      else match more with
        | [] => .error (none, .unexpectedEnd)
        | c :: more =>
          if !isContinuation c then .error (some 2, .invalidContinuation)
          else if a < 0xF0 then .ok (shifted (shifted (a.toNat - 0xE0) b) c, 2)
          else match more with
            | [] => .error (none, .unexpectedEnd)
            | d :: _ =>
              if !isContinuation d then .error (some 3, .invalidContinuation)
              else .ok (shifted (shifted (shifted (a.toNat - 0xF0) b) c) d, 3)

/-- `skip` bytes belong to the character read last; `pos` counts the bytes before. -/
def decodeUtf8 : (skip pos : Nat) → List UInt8 → Except CodecFault Text
  | _, _, [] => .ok []
  | skip + 1, pos, _ :: rest => decodeUtf8 skip (pos + 1) rest
  | 0, pos, a :: rest =>
    match readUtf8 a rest with
    | .ok (code, extra) => (decodeUtf8 extra (pos + 1) rest).map (CodePoint.ofNat code :: ·)
    | .error (width, reason) =>
      .error (.undecodable (label utf8) a pos (pos + width.getD (rest.length + 1)) reason.message)

/-- Bytes that each are one character below `limit`. -/
def decodeSingle (codec : Text) (limit pos : Nat) : List UInt8 → Except CodecFault Text
  | [] => .ok []
  | a :: rest =>
    if a.toNat < limit then (decodeSingle codec limit (pos + 1) rest).map (CodePoint.ofNat a.toNat :: ·)
    else .error (.undecodable codec a pos (pos + 1) (ByteFault.ordinal limit).message)

def decodeUtf16 (pos : Nat) : List UInt8 → Except CodecFault Text
  | [] => .ok []
  | [a] => .error (.undecodable (label utf16le) a pos (pos + 1) ByteFault.truncated.message)
  | a :: b :: rest =>
    let unit := a.toNat + 256 * b.toNat
    if unit < 0xD800 || 0xE000 ≤ unit then
      (decodeUtf16 (pos + 2) rest).map (CodePoint.ofNat unit :: ·)
    else if 0xDC00 ≤ unit then
      .error (.undecodable (label utf16le) a pos (pos + 2) ByteFault.loneLowSurrogate.message)
    else match rest with
      | c :: d :: more =>
        let low := c.toNat + 256 * d.toNat
        if 0xDC00 ≤ low && low < 0xE000 then
          let code := 0x10000 + (unit - 0xD800) * 0x400 + (low - 0xDC00)
          (decodeUtf16 (pos + 4) more).map (CodePoint.ofNat code :: ·)
        else .error (.undecodable (label utf16le) a pos (pos + 2) ByteFault.loneHighSurrogate.message)
      | short =>
        .error (.undecodable (label utf16le) a pos (pos + 2 + short.length) ByteFault.unexpectedEnd.message)

/-- The text of a file. -/
def decode (encoding : Encoding) (bytes : List UInt8) : Except CodecFault Text :=
  match encoding with
  | utf8 => decodeUtf8 0 0 bytes
  | utf8Marked =>
    if byteOrderMark.isPrefixOf bytes then decodeUtf8 0 0 (bytes.drop 3)
    else if bytes.isPrefixOf byteOrderMark then .ok []
    else decodeUtf8 0 0 bytes
  | latin1 => decodeSingle (label latin1) 256 0 bytes
  | ascii => decodeSingle (label ascii) 128 0 bytes
  | utf16le => decodeUtf16 0 bytes

/-- One byte a character, all below `limit`; a refusal names the whole run at fault. -/
def encodeSingle (codec : Text) (limit pos : Nat) : Text → Except CodecFault (List UInt8)
  | [] => .ok []
  | c :: rest =>
    if c.toNat < limit then
      (encodeSingle codec limit (pos + 1) rest).map (UInt8.ofNat c.toNat :: ·)
    else
      let run := rest.takeWhile fun d => limit ≤ d.toNat
      .error (.unencodable codec c pos (pos + 1 + run.length) (ByteFault.ordinal limit).message)

/-- A sixteen bit unit, low byte first. -/
def unitBytes (unit : Nat) : List UInt8 := [UInt8.ofNat (unit % 256), UInt8.ofNat (unit / 256)]

/-- The refusal of a surrogate, which is no character to the encoding. -/
def refuseSurrogate (encoding : Encoding) (c : CodePoint) (start stop : Nat) : CodecFault :=
  .unencodable encoding.label c start stop (Text.lit "surrogates not allowed")

/-- A refusal names the whole run of surrogates. -/
def encodeUtf8 (pos : Nat) : Text → Except CodecFault (List UInt8)
  | [] => .ok []
  | .scalar c :: rest => (encodeUtf8 (pos + 1) rest).map (String.utf8EncodeChar c ++ ·)
  | .surrogate n :: rest =>
    let run := rest.takeWhile CodePoint.isSurrogate
    .error (refuseSurrogate utf8 (.surrogate n) pos (pos + 1 + run.length))

/-- One unit for a character in the first plane, two for any other. -/
def utf16Bytes (code : Nat) : List UInt8 :=
  if code < 0x10000 then unitBytes code
  else unitBytes (0xD800 + (code - 0x10000) / 0x400) ++ unitBytes (0xDC00 + (code - 0x10000) % 0x400)

def encodeUtf16 (pos : Nat) : Text → Except CodecFault (List UInt8)
  | [] => .ok []
  | .scalar c :: rest => (encodeUtf16 (pos + 1) rest).map (utf16Bytes c.toNat ++ ·)
  | .surrogate n :: _ => .error (refuseSurrogate utf16le (.surrogate n) pos (pos + 1))

/-- The bytes of a file that holds a text. -/
def encode (encoding : Encoding) (t : Text) : Except CodecFault (List UInt8) :=
  match encoding with
  | utf8 => encodeUtf8 0 t
  | utf8Marked => (encodeUtf8 0 t).map (byteOrderMark ++ ·)
  | latin1 => encodeSingle (label latin1) 256 0 t
  | ascii => encodeSingle (label ascii) 128 0 t
  | utf16le => encodeUtf16 0 t

def codec (encoding : Encoding) : Codec := ⟨encoding.encode, encoding.decode⟩

end Encoding

/-- The encodings of this module as the codecs of a host. -/
def Codecs.standard : Codecs := fun name =>
  match Encoding.ofName? name with
  | some encoding => .ok encoding.codec
  | none => .error (Text.lit "unknown encoding: " ++ name)

end Linework
