import Linework.Text.Basic

/-!
# Base 64

Bytes written as characters of six bits each. Characters of no value are passed over, and a full
padding ends the text.
-/

namespace Linework

namespace Base64

/-- The six bits of a character. -/
def value? (c : CodePoint) : Option Nat :=
  if 'A' ≤ c && c ≤ 'Z' then some (c.toNat - 'A'.toNat)
  else if 'a' ≤ c && c ≤ 'z' then some (c.toNat - 'a'.toNat + 26)
  else if '0' ≤ c && c ≤ '9' then some (c.toNat - '0'.toNat + 52)
  else if c = '+' then some 62
  else if c = '/' then some 63
  else none

/-- The values of a text, as far as it counts, in groups of four. The last group may be short;
`padded` tells whether a padding filled it up. -/
def groups (current : List Nat) (pads : Nat) : Text → List (List Nat) × Bool
  | [] => ([current], false)
  | c :: rest =>
    if c = '=' then
      if 2 ≤ current.length && 4 ≤ current.length + pads + 1 then ([current], true)
      else groups current (if 2 ≤ current.length then pads + 1 else pads) rest
    else match value? c with
      | none => groups current pads rest
      | some value =>
        if current.length = 3 then
          let more := groups [] 0 rest
          ((current ++ [value]) :: more.1, more.2)
        else groups (current ++ [value]) 0 rest

/-- The bytes of a group. -/
def bytes : List Nat → List UInt8
  | a :: b :: rest =>
    UInt8.ofNat (a * 4 + b / 16) ::
      match rest with
      | [] => []
      | c :: rest =>
        UInt8.ofNat (b % 16 * 16 + c / 4) ::
          match rest with
          | [] => []
          | d :: _ => [UInt8.ofNat (c % 4 * 64 + d)]
  | _ => []

/-- The bytes of a text, unless its end is missing. -/
def decode? (t : Text) : Option (List UInt8) :=
  let (found, padded) := groups [] 0 t
  if padded || found.getLast? = some [] then some (found.flatMap bytes) else none

end Base64

end Linework
