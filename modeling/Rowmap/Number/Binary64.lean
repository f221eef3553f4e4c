import Rowmap.Number.Scientific

/-!
# Binary numbers of double precision

A double is kept as what it stands for: a significand below 2^53 and a power of two. Rounding to the
nearest double, ties to the even significand, is exact arithmetic on natural numbers, and so is
every comparison.
-/

namespace Rowmap

/-- A double. `finite negative m e` stands for `m · 2^e`; two values that are no number are told
apart by a tag, because containers compare their elements by identity first. -/
inductive Binary64 where
  | finite (negative : Bool) (significand : Nat) (exponent : Int)
  | infinite (negative : Bool)
  | notANumber (tag : Nat)
  deriving DecidableEq, Repr

namespace Binary64

/-- The least exponent of a double. -/
def minExponent : Int := -1074

/-- The greatest exponent of a double. -/
def maxExponent : Int := 971

/-- Zero, with its sign. -/
def zero (negative : Bool) : Binary64 := .finite negative 0 minExponent

/-- The quotient and remainder of `num / (den · 2^e)`, with the denominator used. -/
def scaledDiv (num den : Nat) (e : Int) : Nat × Nat × Nat :=
  if 0 ≤ e then
    let d := den * Nat.pow 2 e.toNat
    (num / d, num % d, d)
  else
    let n := num * Nat.pow 2 (-e).toNat
    (n / den, n % den, den)

/-- A quotient rounded to the nearest whole number, a half to the even one. -/
def roundHalfEven (q r d : Nat) : Nat :=
  if 2 * r < d then q else if d < 2 * r then q + 1 else if q % 2 == 0 then q else q + 1

/-- The exponent at which a positive fraction has a significand of 53 bits, or the least one. -/
def exponentFor (num den : Nat) : Int :=
  let guess : Int := (num.log2 : Int) - den.log2 - 52
  let e := if (scaledDiv num den guess).1 < Nat.pow 2 52 then guess - 1 else guess
  max e minExponent

/-- The double nearest to a fraction. -/
def ofRatio (negative : Bool) (num den : Nat) : Binary64 :=
  if num == 0 || den == 0 then zero negative
  else
    let e := exponentFor num den
    let (q, r, d) := scaledDiv num den e
    let m := roundHalfEven q r d
    let (m, e) := if m == Nat.pow 2 53 then (Nat.pow 2 52, e + 1) else (m, e)
    if m == 0 then zero negative
    else if maxExponent < e then .infinite negative
    else .finite negative m e

/-- The double nearest to a number in decimal notation. A magnitude far outside the range is decided
without computing the power of ten. -/
def ofScientific (s : Scientific) : Binary64 :=
  let size : Int := (Nat.toDigits 10 s.coefficient).length + s.exponent
  if s.coefficient == 0 || size < -400 then zero s.negative
  else if 400 < size then .infinite s.negative
  else if 0 ≤ s.exponent then ofRatio s.negative (s.coefficient * Nat.pow 10 s.exponent.toNat) 1
  else ofRatio s.negative s.coefficient (Nat.pow 10 (-s.exponent).toNat)

/-- The double that a text writes; `tag` tells it apart when it is no number. -/
def ofText? (tag : Nat) (s : String) : Option Binary64 :=
  match NumberText.ofChars? s.toList with
  | some (.finite n) => some (ofScientific n)
  | some (.infinite negative) => some (.infinite negative)
  | some (.notANumber _ false "") => some (.notANumber tag)
  | _ => none

/-- The double nearest to a whole number. -/
def ofInt (i : Int) : Binary64 := ofRatio (i < 0) i.natAbs 1

/-- The number that a finite double stands for. -/
def toRat? : Binary64 → Option Rat
  | .finite negative m e =>
    let n : Int := Text.signed negative m
    some (if 0 ≤ e then ((n * Int.pow 2 e.toNat : Int) : Rat) else mkRat n (Nat.pow 2 (-e).toNat))
  | _ => none

/-- The whole number towards zero of a finite double. -/
def truncate? : Binary64 → Option Int
  | .finite negative m e =>
    some (Text.signed negative (if 0 ≤ e then m * Nat.pow 2 e.toNat else m / Nat.pow 2 (-e).toNat))
  | _ => none

/-- Whether a double is zero, of either sign. -/
def isZero : Binary64 → Bool
  | .finite _ m _ => m == 0
  | _ => false

end Binary64

end Rowmap
