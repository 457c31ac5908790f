import Linework.Toolkit.Yaml.Tag
import Linework.Toolkit.Yaml.Token
import Linework.Number.Double
import Linework.Text.Blank

/-!
# Numbers of YAML

The values of texts that are tagged as numbers. A plain scalar that looks like a number always
has a value; a text with a written tag may have none.
-/

namespace Linework.Yaml

namespace Tag

/-- The text between blanks. -/
def trimmed (t : Text) : Text := Text.dropEndWhile Text.isBlank (t.dropWhile Text.isBlank)

/-- Digits of a base, behind the mark of that base if there is one. -/
def basedDigits? (base : Nat) (t : Text) : Option Nat :=
  let mark : Option (CodePoint × Text) :=
    match t with
    | '0' :: letter :: digits => some (letter.toLower, digits)
    | _ => none
  match base, mark with
  | 2, some ('b', digits) => Text.numeral? 2 digits
  | 8, some ('o', digits) => Text.numeral? 8 digits
  | 16, some ('x', digits) => Text.numeral? 16 digits
  | _, _ => Text.numeral? base t

/-- A number in a base, with blanks around it and a sign. -/
def wholeIn (base : Nat) (t : Text) : Except Fault Int :=
  let bare := trimmed t
  match basedDigits? base (unsigned bare) with
  | none => .error (.notWhole base t)
  | some n => .ok (if bare.head? = some ('-' : CodePoint) then -(n : Int) else n)

/-- A number without its sign. -/
def magnitude (t : Text) : Except Fault Int :=
  match t with
  | [] => .error .emptyNumber
  | ['0'] => .ok 0
  | '0' :: 'b' :: digits => wholeIn 2 digits
  | '0' :: 'x' :: digits => wholeIn 16 digits
  | '0' :: _ => wholeIn 8 t
  | _ =>
    if t.contains ':' then do
      let parts ← (Text.pieces (fun c : CodePoint => c == ':') t).mapM (wholeIn 10)
      return parts.foldl (fun n part => n * 60 + part) 0
    else wholeIn 10 t

/-- The text without underscores; it must not be empty. -/
def digitsOnly (t : Text) : Except Fault Text :=
  let bare := t.filter (fun c : CodePoint => c != '_')
  if bare = [] then .error .emptyNumber else .ok bare

def isNegative (t : Text) : Bool := t.head? = some ('-' : CodePoint)

def wholeOf (t : Text) : Except Fault Int := do
  let bare ← digitsOnly t
  let n ← magnitude (unsigned bare)
  return if isNegative bare then -n else n

/-- The exponent of a decimal. -/
def exponent? : Text → Option Int
  | [] => some 0
  | e :: digits =>
    if e != 'e' then none
    else (Text.numeral? 10 (unsigned digits)).map fun n =>
      if isNegative digits then -(n : Int) else n

/-- A decimal: digits with a point somewhere, and an exponent. -/
def decimal? (t : Text) : Option Double := do
  let negative := isNegative t
  let bare := unsigned t
  if isOneOf ["inf", "infinity", "nan"] bare then return .notFinite
  let front := bare.takeWhile CodePoint.isDigit
  let rest := bare.drop front.length
  let behind := if rest.head? = some ('.' : CodePoint) then rest.tail else []
  let fraction := behind.takeWhile CodePoint.isDigit
  let tail := if rest.head? = some ('.' : CodePoint) then behind.drop fraction.length else rest
  if front = [] && fraction = [] then none
  else
    let exponent ← exponent? tail
    return .ofDecimal negative (Text.numeral 10 (front ++ fraction)) (exponent - fraction.length)

def decimalOf (t : Text) : Except Fault Double :=
  match decimal? (trimmed t) with
  | some d => .ok d
  | none => .error (.notReal t)

def realOf (t : Text) : Except Fault Double := do
  let bare ← digitsOnly (t.map CodePoint.toLower)
  let size := unsigned bare
  if isOneOf [".inf", ".nan"] size then return .notFinite
  if size.contains ':' then
    let parts ← (Text.pieces (fun c : CodePoint => c == ':') size).mapM decimalOf
    let sum : Double := parts.foldl (fun sum part => sum.timesPlus 60 part) Double.zero
    return sum.signed (isNegative bare)
  else return (← decimalOf size).signed (isNegative bare)

/-- The truth value of a word. -/
def flagOf (t : Text) : Except Fault Bool :=
  let word := t.map CodePoint.toLower
  if isOneOf ["yes", "true", "on"] word then .ok true
  else if isOneOf ["no", "false", "off"] word then .ok false
  else .error (.notFlag word)

end Tag

end Linework.Yaml
