import Linework.Text.Numeral

/-!
# Tags of YAML

What a node stands for. A tag is written out, or it follows from the text of a plain scalar:
words for truth values and for nothing, numbers in several bases and in sixties, and dates.
-/

namespace Linework.Yaml

inductive Tag where
  | null
  | flag
  | whole
  | real
  | binary
  | moment
  | orderedMap
  | pairs
  | set
  | text
  | sequence
  | mapping
  /-- The key under which other tables are merged in. -/
  | merge
  /-- The key of a default value. -/
  | default
  | unknown
  deriving DecidableEq, Repr

namespace Tag

/-- The tags by their written names. -/
def names : List (String × Tag) :=
  [("null", null), ("bool", flag), ("int", whole), ("float", real), ("binary", binary),
   ("timestamp", moment), ("omap", orderedMap), ("pairs", pairs), ("set", set), ("str", text),
   ("seq", sequence), ("map", mapping), ("merge", merge), ("value", default)]

/-- What all written names begin with. -/
def scheme : Text := Text.lit "tag:yaml.org,2002:"

def ofName (t : Text) : Tag :=
  match names.find? fun entry => scheme ++ Text.lit entry.1 = t with
  | some entry => entry.2
  | none => unknown

/-! ## Plain scalars -/

def isOneOf (words : List String) (t : Text) : Bool := words.any fun word => Text.lit word == t

def isNull (t : Text) : Bool := isOneOf ["", "~", "null", "Null", "NULL"] t

def isFlag (t : Text) : Bool :=
  isOneOf ["yes", "Yes", "YES", "no", "No", "NO", "true", "True", "TRUE", "false", "False",
    "FALSE", "on", "On", "ON", "off", "Off", "OFF"] t

def isSign (c : CodePoint) : Bool := c == '+' || c == '-'

/-- The text behind a sign. -/
def unsigned : Text → Text
  | [] => []
  | c :: rest => if isSign c then rest else c :: rest

/-- A digit of a base, or the underscore between digits. -/
def isDigitOf (base : Nat) (c : CodePoint) : Bool :=
  c == '_' || (Text.isHexDigit c && Text.digitValue c < base)

/-- A decimal that begins with a digit. -/
def isDecimal (t : Text) : Bool := (t.head?.any CodePoint.isDigit) && t.all (isDigitOf 10)

/-- A part of a number in sixties behind a colon. -/
def isSixtieth : Text → Bool
  | [b] => b.isDigit
  | [a, b] => '0' ≤ a && a ≤ '5' && b.isDigit
  | _ => false

/-- Digits of a base behind the letter that announces it. -/
def isBased (base : Nat) (digits : Text) : Bool := digits ≠ [] && digits.all (isDigitOf base)

/-- A number without a fraction and without a sign. -/
def isMagnitude : Text → Bool
  | ['0'] => true
  | '0' :: 'b' :: digits => isBased 2 digits
  | '0' :: 'x' :: digits => isBased 16 digits
  | '0' :: digits => isBased 8 digits
  | t =>
    match Text.pieces (fun c : CodePoint => c == ':') t with
    | first :: rest => isDecimal first && rest.all isSixtieth
    | [] => false

def isWhole (t : Text) : Bool := isMagnitude (unsigned t)

/-- Nothing, or a power of ten with a sign. -/
def isScale : Text → Bool
  | [] => true
  | e :: sign :: digits =>
    (e == 'e' || e == 'E') && isSign sign && digits ≠ [] && digits.all CodePoint.isDigit
  | _ => false

/-- The text behind a fraction. -/
def afterFraction (t : Text) : Text := t.dropWhile (isDigitOf 10)

def isReal (t : Text) : Bool :=
  let bare := unsigned t
  match Text.cut? ['.'] bare with
  | none => false
  | some ([], digits) =>
    isOneOf ["inf", "Inf", "INF"] digits ||
      (bare = t && (isOneOf ["nan", "NaN", "NAN"] digits ||
        (digits.head?.any CodePoint.isDigit && isScale (afterFraction digits))))
  | some (front, digits) =>
    match Text.pieces (fun c : CodePoint => c == ':') front with
    | [first] => isDecimal first && isScale (afterFraction digits)
    | first :: rest => isDecimal first && rest.all isSixtieth && digits.all (isDigitOf 10)
    | [] => false

end Tag

end Linework.Yaml
