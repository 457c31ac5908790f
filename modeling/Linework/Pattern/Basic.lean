import Linework.Text.Blank
import Linework.Text.Word
import Linework.Text.Case
import Linework.Text.Quoted

/-!
# Patterns

A pattern is an expression over sets of characters together with the text it was written as
and the flags in force. The flags are resolved in the expression: each set and each anchor
carries the character classes it goes by, so an expression means the same in every place.
-/

namespace Linework

/-- Which character classes and case rules a pattern goes by. -/
inductive Alphabet where
  | unicode
  | ascii
  deriving DecidableEq, Repr

namespace Alphabet

def isWord : Alphabet → CodePoint → Bool
  | unicode => Text.isWord
  | ascii => Text.isAsciiWord

def isBlank : Alphabet → CodePoint → Bool
  | unicode => Text.isBlank
  | ascii => fun c => c == ' ' || (9 ≤ c.toNat && c.toNat ≤ 13)

def isDigit : Alphabet → CodePoint → Bool
  | unicode => Text.isDecimal
  | ascii => CodePoint.isDigit

/-- Lower case of a code point. -/
def lower : Alphabet → Nat → Nat
  | unicode => Text.lowerCode
  | ascii => Text.asciiLowerCode

/-- Two code points are one letter when they have the same key. -/
def key : Alphabet → Nat → Nat
  | unicode => Text.foldCode
  | ascii => Text.asciiLowerCode

/-- The code points with a given key. -/
def sameLetter : Alphabet → Nat → List Nat
  | unicode, low => Text.foldedTo low
  | ascii, low => if 0x61 ≤ low && low ≤ 0x7A then [low, low - 0x20] else [low]

end Alphabet

/-- A class of characters that has a letter of its own. -/
inductive CharKind where
  | digit
  | blank
  | word
  deriving DecidableEq, Repr

namespace CharKind

def has (alphabet : Alphabet) : CharKind → CodePoint → Bool
  | digit => alphabet.isDigit
  | blank => alphabet.isBlank
  | word => alphabet.isWord

end CharKind

/-- A member of a character set. Code points stand for themselves, so that a set may name ones
that no text holds. -/
inductive SetItem where
  | code (n : Nat)
  | range (low high : Nat)
  | kind (kind : CharKind)
  | unlike (kind : CharKind)
  deriving DecidableEq, Repr

namespace SetItem

/-- Membership with case told apart. -/
def has (alphabet : Alphabet) (c : CodePoint) : SetItem → Bool
  | code n => c.toNat == n
  | range low high => low ≤ c.toNat && c.toNat ≤ high
  | kind k => k.has alphabet c
  | unlike k => !k.has alphabet c

/-- Membership with case ignored. -/
def hasFolded (alphabet : Alphabet) (c : CodePoint) : SetItem → Bool
  | code n => alphabet.key c.toNat == alphabet.key n
  | range low high =>
    (alphabet.sameLetter (alphabet.key c.toNat)).any fun code => low ≤ code && code ≤ high
  | kind k => k.has alphabet (CodePoint.ofNat (alphabet.lower c.toNat))
  | unlike k => !k.has alphabet (CodePoint.ofNat (alphabet.lower c.toNat))

end SetItem

/-- A set of characters, or all characters outside it. -/
structure CharSet where
  items : List SetItem
  negated : Bool := false
  alphabet : Alphabet := .unicode
  ignoresCase : Bool := false
  deriving DecidableEq, Repr

namespace CharSet

def has (set : CharSet) (c : CodePoint) : Bool :=
  let member := if set.ignoresCase then SetItem.hasFolded set.alphabet c else SetItem.has set.alphabet c
  set.items.any member != set.negated

end CharSet

/-- A condition on a place in a text. -/
inductive Anchor where
  | textStart
  | lineStart
  | textEnd
  | lineEnd
  /-- The end, or before a newline at the end. -/
  | lastEnd
  | wordEdge (alphabet : Alphabet)
  | notWordEdge (alphabet : Alphabet)
  deriving DecidableEq, Repr

/-- How many repetitions are tried first. -/
inductive Greed where
  | most
  | fewest
  /-- As many as possible, and none of them given back. -/
  | hold
  deriving DecidableEq, Repr

/-- What a pattern matches. -/
inductive Expr where
  | empty
  | set (set : CharSet)
  | seq (first second : Expr)
  | alt (first second : Expr)
  | rep (least : Nat) (most : Option Nat) (greed : Greed) (body : Expr)
  | group (index : Nat) (body : Expr)
  | backref (index : Nat) (alphabet : Alphabet) (ignoresCase : Bool)
  | ahead (negated : Bool) (body : Expr)
  /-- Looks back over a text of the given width. -/
  | behind (negated : Bool) (width : Nat) (body : Expr)
  | anchor (anchor : Anchor)
  | atomic (body : Expr)
  | cond (index : Nat) (yes no : Expr)
  deriving DecidableEq, Repr

namespace Expr

/-- One character. -/
def char (c : CodePoint) : Expr := set { items := [.code c.toNat] }

/-- A fixed text. -/
def text : Text → Expr
  | [] => empty
  | [c] => char c
  | c :: rest => seq (char c) (text rest)

/-- One expression after the other. -/
def sequence : List Expr → Expr
  | [] => empty
  | [e] => e
  | e :: rest => seq e (sequence rest)

/-- The first expression that fits. -/
def choice : List Expr → Expr
  | [] => empty
  | [e] => e
  | e :: rest => alt e (choice rest)

end Expr

/-- The switches of a pattern. -/
structure PatternFlags where
  ignoreCase : Bool := false
  multiline : Bool := false
  dotAll : Bool := false
  verbose : Bool := false
  ascii : Bool := false
  deriving DecidableEq, Repr

namespace PatternFlags

def alphabet (flags : PatternFlags) : Alphabet := if flags.ascii then .ascii else .unicode

/-- Flags by their long names. -/
def names (flags : PatternFlags) : List Text :=
  ([(flags.ignoreCase, "re.IGNORECASE"), (flags.multiline, "re.MULTILINE"),
    (flags.dotAll, "re.DOTALL"), (flags.verbose, "re.VERBOSE"),
    (flags.ascii, "re.ASCII")].filter (·.1)).map fun flag => Text.lit flag.2

end PatternFlags

/-- A pattern as it was written and as it is matched. -/
structure Pattern where
  source : Text
  flags : PatternFlags
  expr : Expr
  deriving DecidableEq, Repr

namespace Pattern

/-- How much of a pattern is shown. -/
def shownLength : Nat := 200

/-- A pattern as a message shows it. -/
def quoted (pattern : Pattern) : Text :=
  let flags := pattern.flags.names
  Text.lit "re.compile(" ++ (Text.quoted pattern.source).take shownLength ++
    (if flags = [] then [] else Text.lit ", " ++ List.intercalate (['|'] : Text) flags) ++ Text.lit ")"

end Pattern

end Linework
