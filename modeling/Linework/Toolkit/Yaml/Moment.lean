import Linework.Toolkit.Yaml.Token
import Linework.Text.Numeral

/-!
# Moments

Dates, and times on them, as YAML writes them. A moment that is written in the right form may
still not exist.
-/

namespace Linework.Yaml

structure Moment where
  year : Nat
  month : Nat
  day : Nat
  /-- Hour, minute and second. -/
  time : Option (Nat × Nat × Nat) := none
  /-- Seconds from the standard time. -/
  offset : Int := 0
  deriving DecidableEq, Repr

namespace Moment

/-- A number of at most `width` digits and the text behind it. -/
def number? (least width : Nat) (t : Text) : Option (Nat × Text) :=
  let digits := (t.take width).takeWhile CodePoint.isDigit
  if least ≤ digits.length then some (Text.numeral 10 digits, t.drop digits.length) else none

/-- The text behind a character. -/
def behind? (c : CodePoint) : Text → Option Text
  | [] => none
  | d :: rest => if c = d then some rest else none

def isBlank (c : CodePoint) : Bool := c == ' ' || c == '\t'

/-- An offset with its sign: hours, and minutes behind a colon. -/
def signedOffset? : Text → Option Int
  | [] => none
  | sign :: t => do
    let (hours, rest) ← number? 1 2 t
    let minutes ←
      if rest = [] then pure 0
      else do
        let (minutes, rest) ← number? 2 2 (← behind? ':' rest)
        if rest = [] then pure minutes else none
    let seconds : Int := hours * 3600 + minutes * 60
    if sign = '+' then return seconds else if sign = '-' then return -seconds else none

/-- Nothing, or an offset behind blanks. -/
def offset? (t : Text) : Option Int :=
  if t = [] then some 0
  else
    let bare := t.dropWhile isBlank
    if bare = (['Z'] : Text) then some 0 else signedOffset? bare

/-- What stands between a date and a time. -/
def timeMark? : Text → Option Text
  | [] => none
  | c :: rest =>
    if c = 'T' || c = 't' then some rest
    else if isBlank c then some (rest.dropWhile isBlank) else none

/-- A moment in its written form; a date alone has two digits for month and day if `strict`. -/
def ofText? (strict : Bool) (t : Text) : Option Moment := do
  let (year, afterYear) ← number? 4 4 t
  let (month, afterMonth) ← number? 1 2 (← behind? '-' afterYear)
  let (day, afterDay) ← number? 1 2 (← behind? '-' afterMonth)
  if afterDay = [] then
    if strict && t.length < 10 then none else return { year, month, day }
  else
    let (hour, afterHour) ← number? 1 2 (← timeMark? afterDay)
    let (minute, afterMinute) ← number? 2 2 (← behind? ':' afterHour)
    let (second, afterSecond) ← number? 2 2 (← behind? ':' afterMinute)
    let rest :=
      match behind? '.' afterSecond with
      | some fraction => fraction.dropWhile CodePoint.isDigit
      | none => afterSecond
    return { year, month, day, time := some (hour, minute, second), offset := ← offset? rest }

def isLeap (year : Nat) : Bool := year % 4 = 0 && (year % 100 ≠ 0 || year % 400 = 0)

def daysOf (year : Nat) : (month : Nat) → Nat
  | 2 => if isLeap year then 29 else 28
  | 4 | 6 | 9 | 11 => 30
  | _ => 31

/-- The seconds of a day. -/
def dayLength : Int := 86400

/-- Refuses a moment that does not exist. -/
def check (m : Moment) : Except Fault Unit := do
  if m.offset ≤ -dayLength || dayLength ≤ m.offset then throw (.farOffset m.offset)
  if m.year = 0 then throw (.outOfBounds .year m.year)
  if m.month = 0 || 12 < m.month then throw (.outOfBounds .month m.month)
  if m.day = 0 || daysOf m.year m.month < m.day then throw (.outOfBounds .day m.day)
  match m.time with
  | none => return
  | some (hour, minute, second) =>
    if 23 < hour then throw (.outOfBounds .hour hour)
    if 59 < minute then throw (.outOfBounds .minute minute)
    if 59 < second then throw (.outOfBounds .second second)

end Moment

end Linework.Yaml
