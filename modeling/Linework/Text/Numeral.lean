import Linework.Text.Basic

/-!
# Numerals

Digits up to base sixteen, and the numbers that they write.
-/

namespace Linework

namespace Text

def isHexDigit (c : CodePoint) : Bool :=
  c.isDigit || ('a' ≤ c && c ≤ 'f') || ('A' ≤ c && c ≤ 'F')

def isOctalDigit (c : CodePoint) : Bool := '0' ≤ c && c ≤ '7'

def digitValue (c : CodePoint) : Nat :=
  if c.isDigit then c.toNat - '0'.toNat
  else if 'a' ≤ c then c.toNat - 'a'.toNat + 10 else c.toNat - 'A'.toNat + 10

/-- The number that digits write in a base. -/
def numeral (base : Nat) (digits : Text) : Nat :=
  digits.foldl (fun n c => base * n + digitValue c) 0

/-- The number that a text of digits writes in a base, if it is one. -/
def numeral? (base : Nat) (t : Text) : Option Nat :=
  if t ≠ [] && t.all fun c => isHexDigit c && digitValue c < base then some (numeral base t)
  else none

end Text

end Linework
