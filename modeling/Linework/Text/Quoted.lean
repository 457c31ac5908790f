import Linework.Text.Printable

/-!
# Quoted text

A text between quotation marks on one line: the mark in use and the backslash are escaped,
the three common controls have short escapes, and every other character without a glyph is
written by its code point in two, four or eight hexadecimal digits.
-/

namespace Linework.Text

/-- The mark around a text: the apostrophe, unless the text has one and no double quote. -/
def mark (t : Text) : CodePoint :=
  if t.contains '\'' && !t.contains '"' then '"' else '\''

/-- A code point by the shortest of the three numeric escapes. -/
def escapedCode (code : Nat) : Text :=
  if code < 0x100 then lit "\\x" ++ zeroFill 2 (ofNat 16 code)
  else if code < 0x10000 then lit "\\u" ++ zeroFill 4 (ofNat 16 code)
  else lit "\\U" ++ zeroFill 8 (ofNat 16 code)

/-- One character inside the marks `m`. -/
def escaped (m c : CodePoint) : Text :=
  if c = m || c = '\\' then ['\\', c]
  else if c = '\n' then lit "\\n"
  else if c = '\r' then lit "\\r"
  else if c = '\t' then lit "\\t"
  else if isPrintable c then [c]
  else escapedCode c.toNat

/-- A text between marks. -/
def quoted (t : Text) : Text :=
  let m := mark t
  m :: t.flatMap (escaped m) ++ [m]

end Linework.Text
