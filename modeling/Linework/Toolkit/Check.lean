import Linework.Settings
import Linework.Settings.Value
import Linework.Text.Blank
import Linework.Text.Encoding
import Linework.Text.Numeral

/-!
# Checking settings

Settings from a table of values. A number of blanks may be given as any number or numeral
without a fraction; texts have to be texts. All faults are found, in the order of the fields.
-/

namespace Linework

inductive SettingFault where
  | notText
  | notUnicode
  | notWhole
  | fractional
  | notNumeral
  | notFinite
  | tooLarge
  | negative
  | badNewline (given : Text)
  /-- Settings do not change. -/
  | frozen
  deriving DecidableEq, Repr

namespace SettingFault

open Text

/-- The type of a fault. -/
def kind : SettingFault → Text
  | notText => lit "string_type"
  | notUnicode => lit "string_unicode"
  | notWhole => lit "int_type"
  | fractional => lit "int_from_float"
  | notNumeral => lit "int_parsing"
  | notFinite => lit "finite_number"
  | tooLarge => lit "int_parsing_size"
  | negative => lit "greater_than_equal"
  | badNewline _ => lit "value_error"
  | frozen => lit "frozen_instance"

def message : SettingFault → Text
  | notText => lit "Input should be a valid string"
  | notUnicode => lit "Input should be a valid string, unable to parse raw data as a unicode string"
  | notWhole => lit "Input should be a valid integer"
  | fractional => lit "Input should be a valid integer, got a number with a fractional part"
  | notNumeral => lit "Input should be a valid integer, unable to parse string as an integer"
  | notFinite => lit "Input should be a finite number"
  | tooLarge => lit "Unable to parse input string as an integer, exceeded maximum size"
  | negative => lit "Input should be greater than or equal to 0"
  | badNewline given =>
    lit "Value error, newline must be one of (" ++
      List.intercalate (lit ", ") (Newline.all.map fun newline => quoted newline.text) ++
      lit "), got " ++ quoted given
  | frozen => lit "Instance is frozen"

end SettingFault

namespace Settings

/-- The most characters of a numeral. -/
def numeralLimit : Nat := 4300

/-- A double stands for a whole number up to here. -/
def wholeLimit : Int := 0x8000000000000000

/-- Blanks around a numeral; separators of records are none. -/
def isMargin (c : CodePoint) : Bool := Text.isBlank c && !(0x1C ≤ c.toNat && c.toNat ≤ 0x1F)

/-- Digits with single underscores between them. -/
def digits? (t : Text) : Option Nat :=
  let groups := Text.pieces (fun c : CodePoint => c == '_') t
  if groups.all fun group => group ≠ [] && group.all CodePoint.isDigit then
    some (Text.numeral 10 groups.flatten)
  else none

/-- A numeral without a sign; a fraction of zeros counts for nothing. -/
def magnitude? (t : Text) : Option Nat :=
  match Text.cut? ['.'] t with
  | none => digits? t
  | some (front, zeros) => if zeros.all (fun c : CodePoint => c == '0') then digits? front else none

/-- The number that a numeral stands for. -/
def wholeOfText (t : Text) : Except SettingFault Int :=
  let bare := Text.dropEndWhile isMargin (t.dropWhile isMargin)
  let value : Option Int :=
    match bare with
    | '-' :: rest => (magnitude? rest).map fun n => -(n : Int)
    | '+' :: rest => (magnitude? rest).map Int.ofNat
    | _ => (magnitude? bare).map Int.ofNat
  if numeralLimit < bare.length then .error .tooLarge
  else match value with
    | some n => .ok n
    | none => .error .notNumeral

def wholeOfDouble (d : Double) : Except SettingFault Int :=
  match d, d.whole? with
  | .notFinite, _ => .error .notFinite
  | _, none => .error .fractional
  | _, some n => if -wholeLimit < n && n < wholeLimit then .ok n else .error .tooLarge

/-- A whole number that is not negative. -/
def natural (value : Value) : Except SettingFault Nat := do
  let n ← match value with
    | .flag b => pure (if b then 1 else 0)
    | .whole n => pure n
    | .real d => wholeOfDouble d
    | .text t => wholeOfText t
    | .bytes bs =>
      match Encoding.utf8.decode bs with
      | .ok t => wholeOfText t
      | .error _ => throw .notNumeral
    | _ => throw .notWhole
  if n < 0 then throw .negative
  return n.toNat

def plainText (value : Value) : Except SettingFault Text :=
  match value with
  | .text t => .ok t
  | .bytes bs =>
    match Encoding.utf8.decode bs with
    | .ok t => .ok t
    | .error _ => .error .notUnicode
  | _ => .error .notText

def lineEnd (value : Value) : Except SettingFault Newline := do
  let given ← plainText value
  match Newline.ofText? given with
  | some newline => return newline
  | none => throw (.badNewline given)

/-- A field by name, with its default where no value is given. -/
def field {α : Type} (name : String) (default : α) (read : Value → Except SettingFault α)
    (pairs : List (Value × Value)) : Except (Text × SettingFault) α :=
  match Value.lookup? (Text.lit name) pairs with
  | none => .ok default
  | some value => (read value).mapError fun fault => (Text.lit name, fault)

/-- The fault of a field, if it has one. -/
def faultOf {α : Type} : Except (Text × SettingFault) α → Option (Text × SettingFault)
  | .ok _ => none
  | .error fault => some fault

/-- The settings that a table describes; keys that name no setting are passed over. -/
def ofTable (pairs : List (Value × Value)) : Except (List (Text × SettingFault)) Settings :=
  let newline := field "newline" Newline.lf lineEnd pairs
  let indentation := field "indentation" 2 natural pairs
  let encoding := field "encoding" (Text.lit "utf-8") plainText pairs
  match newline, indentation, encoding with
  | .ok newline, .ok indentation, .ok encoding => .ok { newline, indentation, encoding }
  | _, _, _ => .error ([faultOf newline, faultOf indentation, faultOf encoding].filterMap id)

/-- Assigning to a field of finished settings is always refused. -/
def assign (_ : Settings) (name : Text) : List (Text × SettingFault) := [(name, .frozen)]

end Settings

end Linework
