import Linework.Text.Basic

/-!
# Blank characters

The white space characters of Unicode text: the separators, the ASCII controls that
move the carriage, and the four information separators U+001C to U+001F.
-/

namespace Linework.Text

/-- Ranges of the blank characters. -/
def blanks : List (Nat × Nat) :=
  [(0x9, 0xD), (0x1C, 0x20), (0x85, 0x85), (0xA0, 0xA0), (0x1680, 0x1680), (0x2000, 0x200A),
   (0x2028, 0x2029), (0x202F, 0x202F), (0x205F, 0x205F), (0x3000, 0x3000)]

/-- White space, line terminators included. -/
def isBlank (c : CodePoint) : Bool := inRanges c.toNat blanks

/-- The blank characters at the start of a text. -/
def leadingBlanks (t : Text) : Text := t.takeWhile isBlank

/-- Whether a text has no character that shows. -/
def isAllBlank (t : Text) : Bool := t.all isBlank

end Linework.Text
