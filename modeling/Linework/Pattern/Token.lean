import Linework.Pattern.Basic
import Linework.Pattern.Fault

/-!
# Pattern tokens

A pattern is read token by token: a character, or a backslash with the character after it. The
reader always knows the next token, so a backslash at the very end is refused as soon as it
comes next.
-/

namespace Linework

/-- A unit of a written pattern. -/
inductive PatternToken where
  | plain (c : CodePoint)
  | escape (c : CodePoint)
  | dangling
  deriving DecidableEq, Repr

namespace PatternToken

def text : PatternToken → Text
  | plain c => [c]
  | escape c => ['\\', c]
  | dangling => ['\\']

def ofText : Text → List PatternToken
  | [] => []
  | ['\\'] => [dangling]
  | '\\' :: c :: rest => escape c :: ofText rest
  | c :: rest => plain c :: ofText rest

end PatternToken

namespace Pattern

/-- The least and the greatest length of a match; no greatest one when there is no bound. -/
structure Width where
  least : Nat
  most : Option Nat
  deriving DecidableEq, Repr

/-- What is left to read, and what has been learnt about the pattern so far. -/
structure Reading where
  rest : List PatternToken
  /-- The number of characters read. -/
  pos : Nat := 0
  flags : PatternFlags
  /-- Both alphabets have been asked for. -/
  unicodeAsked : Bool := false
  /-- The widths of the groups from the first; none while a group is open. -/
  groups : List (Option Width) := []
  names : List (Text × Nat) := []
  /-- The number of groups at the outermost lookbehind that is open, the whole match counted. -/
  lookbehind : Option Nat := none
  /-- Groups that conditions ask for by number, with the places. -/
  conditions : List (Nat × Nat) := []
  /-- A lookbehind has no single width. -/
  loose : Bool := false

/-- A step of reading a pattern. -/
abbrev Read (α : Type) := EStateM PatternFault Reading α

namespace Read

/-- Refuses with the place `offset` characters back. -/
def fail {α : Type} (cause : PatternCause) (offset : Nat := 0) : Read α := do
  throw ⟨cause, some ((← get).pos - offset)⟩

def peek? : Read (Option PatternToken) := do return (← get).rest.head?

def pos : Read Nat := do return (← get).pos

/-- Refuses a backslash that comes next and ends the pattern. -/
def checkNext : Read Unit := do
  if (← get).rest.head? = some .dangling then fail .danglingEscape

/-- Reads a token; none at the end. -/
def next? : Read (Option PatternToken) := do
  match (← get).rest with
  | [] => return none
  | token :: rest =>
    modify fun s => { s with rest, pos := s.pos + token.text.length }
    checkNext
    return some token

/-- Reads a given character if it comes next. -/
def accept (c : CodePoint) : Read Bool := do
  if (← peek?) = some (.plain c) then
    let _ ← next?
    return true
  else return false

/-- Reads at most `n` characters of a class. -/
def takeWhile (p : CodePoint → Bool) : Nat → Read Text
  | 0 => return []
  | n + 1 => do
    match ← peek? with
    | some (.plain c) =>
      if p c then
        let _ ← next?
        return c :: (← takeWhile p n)
      else return []
    | _ => return []

/-- The number of tokens left, a bound for any loop over them. -/
def left : Read Nat := do return (← get).rest.length

/-- Reads up to `mark`, which is read too; `what` names the text between. -/
def nameUntil (mark : CodePoint) (what : Text) : Read Text := do
  go ((← left) + 1) []
where
  go : Nat → Text → Read Text
    | 0, name => return name
    | fuel + 1, name => do
      match ← next? with
      | none =>
        if name = [] then fail (.missing what) else fail (.unterminatedName mark) name.length
      | some token =>
        if token = .plain mark then
          if name = [] then fail (.missing what) 1 else return name
        else go fuel (name ++ token.text)

end Read

end Pattern

end Linework
