import Linework.Text.Quoted

/-!
# Tokens of YAML

The pieces a YAML text is cut into, and why a text is refused. A text that is no document is
refused without saying where; a scalar that its own tag does not allow is refused by name.
-/

namespace Linework.Yaml

/-- The parts of a moment that have a range. -/
inductive Bounded where
  | year
  | month
  | day
  | hour
  | minute
  | second
  deriving DecidableEq, Repr

inductive Fault where
  /-- The text is no document. -/
  | malformed
  /-- A character is named by a code that none has. -/
  | noCharacter
  | emptyNumber
  | notWhole (base : Nat) (t : Text)
  | notReal (t : Text)
  | notFlag (t : Text)
  | notMoment
  | outOfBounds (part : Bounded) (value : Nat)
  /-- An offset of a day or more from the standard time, in seconds. -/
  | farOffset (seconds : Int)
  deriving DecidableEq, Repr

namespace Bounded

open Text

def message (value : Nat) : Bounded → Text
  | year => lit "year " ++ Text.ofNat 10 value ++ lit " is out of range"
  | month => lit "month must be in 1..12"
  | day => lit "day is out of range for month"
  | hour => lit "hour must be in 0..23"
  | minute => lit "minute must be in 0..59"
  | second => lit "second must be in 0..59"

end Bounded

namespace Fault

open Text

/-- A span of time in days and seconds of a day. -/
def quotedSpan (seconds : Int) : Text :=
  let part (name : String) (n : Int) : List Text := if n = 0 then [] else [lit name ++ ofInt n]
  let parts := part "days=" (seconds / 86400) ++ part "seconds=" (seconds % 86400)
  lit "datetime.timedelta(" ++ List.intercalate (lit ", ") parts ++ ([')'] : Text)

def message : Fault → Text
  | malformed => lit "malformed document"
  | noCharacter => lit "chr() arg not in range(0x110000)"
  | emptyNumber => lit "string index out of range"
  | notWhole base t =>
    lit "invalid literal for int() with base " ++ ofNat 10 base ++ lit ": " ++ quoted t
  | notReal t => lit "could not convert string to float: " ++ quoted t
  | notFlag t => quoted t
  | notMoment => lit "'NoneType' object has no attribute 'groupdict'"
  | outOfBounds part value => part.message value
  | farOffset seconds =>
    lit "offset must be a timedelta strictly between -timedelta(hours=24) and " ++
      lit "timedelta(hours=24), not " ++ quotedSpan seconds ++ (['.'] : Text)

/-- The class of a fault. -/
def name : Fault → Text
  | emptyNumber => lit "IndexError"
  | notFlag _ => lit "KeyError"
  | notMoment => lit "AttributeError"
  | _ => lit "ValueError"

/-- Whether a value was read that cannot be; otherwise there was no value to read. -/
def isBadValue : Fault → Bool
  | emptyNumber | notFlag _ | notMoment => false
  | _ => true

end Fault

/-- What stands before a document. -/
inductive Directive where
  | version (major : Nat)
  | tag (handle start : Text)
  | other
  deriving DecidableEq, Repr

inductive Token where
  | directive (d : Directive)
  | documentStart
  | documentEnd
  | streamEnd
  | sequenceStart
  | mappingStart
  | blockEnd
  | flowSequenceStart
  | flowSequenceEnd
  | flowMappingStart
  | flowMappingEnd
  | flowEntry
  | entry
  | key
  | value
  | alias (name : Text)
  | anchor (name : Text)
  | tag (handle : Option Text) (suffix : Text)
  | scalar (content : Text) (plain : Bool)
  deriving DecidableEq, Repr

end Linework.Yaml
