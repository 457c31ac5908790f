import Linework.Toolkit.Yaml.Token

/-!
# Scanning YAML

A place in a text, and the steps that move it on. Lines end at a line feed and at the other
breaks of Unicode; a byte order mark takes no column. Past the end of the text stands a NUL,
which no text holds.
-/

namespace Linework.Yaml

/-- A scalar that may turn out to be a key, by where it begins. -/
structure KeyPlace where
  /-- How many tokens come before it. -/
  tokens : Nat
  /-- A key has to be here, because nothing else can. -/
  required : Bool
  index : Nat
  line : Nat
  column : Nat
  deriving DecidableEq, Repr

structure Scanner where
  rest : Text
  index : Nat := 0
  line : Nat := 0
  column : Nat := 0
  /-- The depth of brackets and braces. -/
  flow : Nat := 0
  /-- The column of the innermost block, and those around it. -/
  indent : Int := -1
  indents : List Int := []
  /-- Whether a key may begin here. -/
  keyAllowed : Bool := true
  /-- The possible key of each depth. -/
  keys : List (Nat × KeyPlace) := []
  tokens : Array Token := #[]
  /-- Whether the whole text has been cut into tokens. -/
  done : Bool := false

abbrev Scan := StateT Scanner (Except Fault)

def endMark : CodePoint := '\x00'

def isBreak (c : CodePoint) : Bool := c == '\n' || c == '\x85' || c == '\u2028' || c == '\u2029'

/-- The end of a line or of the text. -/
def isLineEnd (c : CodePoint) : Bool := isBreak c || c == endMark

/-- What may follow an indicator that stands alone. -/
def isGap (c : CodePoint) : Bool := isLineEnd c || c == ' ' || c == '\t'

/-- What may follow a word. -/
def isWordEnd (c : CodePoint) : Bool := isLineEnd c || c == ' '

def isBlank (c : CodePoint) : Bool := c == ' ' || c == '\t'

/-- The characters of names. -/
def isNameChar (c : CodePoint) : Bool := c.isAlphanum || c == '-' || c == '_'

namespace Scanner

/-- Moves on by one character. -/
def next (s : Scanner) : Scanner :=
  match s.rest with
  | [] => s
  | c :: rest =>
    let s := { s with rest, index := s.index + 1 }
    if isBreak c then { s with line := s.line + 1, column := 0 }
    else if c = '\ufeff' then s
    else { s with column := s.column + 1 }

def skip (s : Scanner) : Nat → Scanner
  | 0 => s
  | n + 1 => s.next.skip n

end Scanner

namespace Scan

def refuse {α : Type} : Scan α := throw .malformed

def peek (n : Nat) : Scan CodePoint := do return (← get).rest[n]?.getD endMark

def skip (n : Nat) : Scan Unit := modify fun s => s.skip n

/-- Whether the text goes on with some characters. -/
def looksAt (t : Text) : Scan Bool := do return t.isPrefixOf (← get).rest

/-- Takes the characters that satisfy `p`. -/
def takeWhile (p : CodePoint → Bool) : Scan Text := do
  let run := (← get).rest.takeWhile p
  skip run.length
  return run

def dropWhile (p : CodePoint → Bool) : Scan Unit := do let _ ← takeWhile p

/-- Takes a line break, if one is here. A separator of lines or paragraphs stays what it is. -/
def lineBreak : Scan Text := do
  let c ← peek 0
  if !isBreak c then return []
  skip 1
  return if c = '\x85' then ['\n'] else [c]

/-- Whether a line begins here that starts or ends a document. -/
def atBoundary : Scan Bool := do
  let mark ← pure ((← get).rest.take 3)
  return (mark = (['-', '-', '-'] : Text) || mark = (['.', '.', '.'] : Text)) && isGap (← peek 3)

/-- Skips the rest of a line on which nothing but a comment may stand. -/
def restOfLine : Scan Unit := do
  dropWhile (fun c : CodePoint => c == ' ')
  if (← peek 0) = '#' then dropWhile fun c => !isLineEnd c
  if !isLineEnd (← peek 0) then refuse
  let _ ← lineBreak

def emit (token : Token) : Scan Unit := modify fun s => { s with tokens := s.tokens.push token }

end Scan

end Linework.Yaml
