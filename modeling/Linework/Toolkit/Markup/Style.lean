import Linework.Text.Blank
import Linework.Text.Case
import Linework.Toolkit.Markup.Color

/-!
# Names of styles

A style is named by words in any order: attributes, a color, a ground color behind `on`, the
target of a link behind `link`; behind `not` an attribute is taken away. All names of a style have
one normal form. A name that names no style is only put in lower case.
-/

namespace Linework

namespace Markup

structure Style where
  /-- Attributes by their place among all, with whether they are set. -/
  attributes : List (Nat × Bool) := []
  color : Option Text := none
  ground : Option Text := none
  link : Option Text := none
  deriving DecidableEq, Repr

namespace Style

/-- The attributes of a style, in their order, by all their names. -/
def attributeNames : List (List String) :=
  [["bold", "b"], ["dim", "d"], ["italic", "i"], ["underline", "u"], ["blink"], ["blink2"],
   ["reverse", "r"], ["conceal", "c"], ["strike", "s"], ["underline2", "uu"], ["frame"],
   ["encircle"], ["overline", "o"]]

/-- The place of an attribute among all. -/
def attribute? (word : Text) : Option Nat :=
  attributeNames.findIdx? fun names => names.any fun name => Text.lit name == word

/-- The first of the names of an attribute. -/
def attributeName (index : Nat) : Text :=
  Text.lit ((attributeNames[index]?.bind List.head?).getD "")

def lower (t : Text) : Text := t.map fun c => CodePoint.ofNat (Text.lowerCode c.toNat)

def trimmed (t : Text) : Text := Text.dropEndWhile Text.isBlank (t.dropWhile Text.isBlank)

def words (t : Text) : List Text := (Text.pieces Text.isBlank t).filter (· ≠ [])

/-- Words that say what the next word is. -/
inductive Leader where
  | on
  | without
  | link
  deriving DecidableEq, Repr

def Leader.ofWord? (word : Text) : Option Leader :=
  if word = Text.lit "on" then some on
  else if word = Text.lit "not" then some without
  else if word = Text.lit "link" then some link
  else none

def set (style : Style) (index : Nat) (isSet : Bool) : Style :=
  { style with attributes := (index, isSet) :: style.attributes.filter (·.1 ≠ index) }

/-- Adds what a leader says of its word. -/
def addLed? (style : Style) (word : Text) : Leader → Option Style
  | .on => if Color.isName (lower word) then some { style with ground := some (lower word) } else none
  | .without => (attribute? word).map fun index => style.set index false
  | .link => some { style with link := some word }

/-- Adds what a word says by itself. -/
def addWord? (style : Style) (word : Text) : Option Style :=
  match attribute? (lower word) with
  | some index => some (style.set index true)
  | none => if Color.isName (lower word) then some { style with color := some (lower word) } else none

/-- Adds what words say; of two that say the same thing the last counts. -/
def addWords? (style : Style) : List Text → Option Style
  | [] => some style
  | word :: rest =>
    match Leader.ofWord? (lower word), rest with
    | some leader, next :: more => (style.addLed? next leader).bind fun style => addWords? style more
    | some _, [] => none
    | none, rest => (style.addWord? word).bind fun style => addWords? style rest

/-- The words of a style, in their order. -/
def toWords (style : Style) : List Text :=
  let attributes := (List.range attributeNames.length).flatMap fun index =>
    match style.attributes.lookup index with
    | some true => [attributeName index]
    | some false => [Text.lit "not", attributeName index]
    | none => []
  attributes ++ style.color.toList ++
    (style.ground.toList.flatMap fun ground => [Text.lit "on", ground]) ++
    style.link.toList.flatMap fun link => [Text.lit "link", link]

/-- The normal form of a name. -/
def normalName (t : Text) : Text :=
  match addWords? {} (words t) with
  | some style => List.intercalate [' '] style.toWords
  | none => lower (trimmed t)

end Style

end Markup

end Linework
