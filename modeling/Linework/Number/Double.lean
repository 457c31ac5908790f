/-!
# Doubles

Numbers of fifty-three bits. A decimal is rounded to the nearest of them, and to the even one
where two are equally near; what lies past the greatest has no finite value.
-/

namespace Linework

inductive Double where
  /-- A mantissa times a power of two. -/
  | finite (mantissa : Int) (exponent : Int)
  | notFinite
  deriving DecidableEq, Repr

namespace Double

def zero : Double := finite 0 0

/-- The bits of a mantissa. -/
def precision : Nat := 53

/-- The least exponent of a mantissa. -/
def leastExponent : Int := -1074

/-- No finite number reaches two to this power. -/
def bound : Int := 1024

/-- The nearest number to a quotient, an even one where two are equally near. -/
def roundedQuotient (num den : Nat) : Nat :=
  let quotient := num / den
  let rest := 2 * (num % den)
  if rest < den || (rest = den && quotient % 2 = 0) then quotient else quotient + 1

/-- A power of a base; with an exponent below zero it is one. -/
def powerOf (base : Nat) (exponent : Int) : Nat := base.pow exponent.toNat

/-- A power of two; with an exponent below zero it is one. -/
def power (exponent : Int) : Nat := powerOf 2 exponent

/-- The exponent that leaves a positive quotient as many bits as fit. -/
def fittingExponent (num den : Nat) : Int :=
  let guess : Int := (num.log2 : Int) - den.log2 - precision
  let fits := num * power (-(guess + precision)) < den * power (guess + precision)
  max leastExponent (if fits then guess else guess + 1)

/-- The double next to a quotient. -/
def ofQuotient (negative : Bool) (num den : Nat) : Double :=
  if num = 0 then zero
  else
    let exponent := fittingExponent num den
    let mantissa := roundedQuotient (num * power (-exponent)) (den * power exponent)
    if power (bound - exponent) ≤ mantissa then notFinite
    else finite (if negative then -(mantissa : Int) else mantissa) exponent

/-- Decimal exponents beyond this leave nothing, or nothing finite. -/
def decimalBound : Int := 400

/-- The double next to a decimal, a whole number times a power of ten. -/
def ofDecimal (negative : Bool) (digits : Nat) (exponent : Int) : Double :=
  let size := (Nat.toDigits 10 digits).length + exponent
  if digits = 0 || size < -decimalBound then zero
  else if decimalBound < size then notFinite
  else ofQuotient negative (digits * powerOf 10 exponent) (powerOf 10 (-exponent))

/-- The double with its sign turned over, if asked for. -/
def signed (d : Double) (negative : Bool) : Double :=
  match d with
  | notFinite => notFinite
  | finite mantissa exponent => finite (if negative then -mantissa else mantissa) exponent

/-- The double next to a multiple of one plus another. -/
def timesPlus (d : Double) (factor : Nat) (other : Double) : Double :=
  match d, other with
  | finite mantissa exponent, finite addend scale =>
    let least := min exponent scale
    let sum := mantissa * factor * power (exponent - least) + addend * power (scale - least)
    ofQuotient (sum < 0) (sum.natAbs * power least) (power (-least))
  | _, _ => notFinite

/-- The value of a double without a fraction. -/
def whole? : Double → Option Int
  | notFinite => none
  | finite mantissa exponent =>
    if 0 ≤ exponent then some (mantissa * power exponent)
    else if mantissa % power (-exponent) = 0 then some (mantissa / power (-exponent))
    else none

end Double

end Linework
