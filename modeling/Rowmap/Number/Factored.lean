import Rowmap.Number.Binary64
import Rowmap.Number.Decimal

/-!
# Numbers by their factors

A finite number, binary or decimal, is a whole number prime to ten times a power of two and a power
of five. It has exactly one such form, so equality of numbers never has to compute a power, however
large the exponent that was written.
-/

namespace Rowmap

/-- How often a factor divides a number, and what is left of it. -/
def divideOut (p n : Nat) : Nat × Nat :=
  if _ : 1 < p ∧ 0 < n ∧ n % p = 0 then
    let (k, rest) := divideOut p (n / p)
    (k + 1, rest)
  else (0, n)
termination_by n
decreasing_by
  have h := ‹1 < p ∧ 0 < n ∧ n % p = 0›
  exact Nat.div_lt_self h.2.1 h.1

/-- A number as `rest · 2 ^ twos · 5 ^ fives`, its `rest` prime to ten, or zero. -/
structure Factored where
  rest : Int
  twos : Int
  fives : Int
  deriving DecidableEq, Repr

namespace Factored

def zero : Factored := ⟨0, 0, 0⟩

/-- A whole number times powers of two and five. -/
def ofProduct (n twos fives : Int) : Factored :=
  if n = 0 then zero
  else
    let (a, m) := divideOut 2 n.natAbs
    let (b, m) := divideOut 5 m
    ⟨Text.signed (n < 0) m, twos + a, fives + b⟩

def ofInt (n : Int) : Factored := ofProduct n 0 0

def ofBinary64? : Binary64 → Option Factored
  | .finite negative m e => some (ofProduct (Text.signed negative m) e 0)
  | _ => none

def ofDecimal? : Decimal → Option Factored
  | .finite n => some (ofProduct (Text.signed n.negative n.coefficient) n.exponent n.exponent)
  | _ => none

/-- The whole number that a number is, if it is one. -/
def whole? (x : Factored) : Option Int :=
  if 0 ≤ x.twos ∧ 0 ≤ x.fives then
    some (x.rest * (Nat.pow 2 x.twos.toNat * Nat.pow 5 x.fives.toNat : Nat))
  else none

/-! ## Magnitude -/

/-- A power of a factor, which may lie below the line. -/
def power (p : Nat) (e : Int) : Rat :=
  if 0 ≤ e then Nat.pow p e.toNat else mkRat 1 (Nat.pow p (-e).toNat)

/-- Whether a number has a power of two or five that no double has. -/
def isVast (x : Factored) : Bool := 2000 ≤ max x.twos x.fives

/-- Whether a number is nearer to zero than every double. -/
def isTiny (x : Factored) : Bool := x.fives ≤ 0 && x.twos + x.rest.natAbs.log2 < -2000

/-- A positive number as it compares with doubles and with counts: one greater or less than all of
them is put at an end of their range, and any other is itself. -/
def magnitude (x : Factored) : Rat :=
  if x.isVast then power 2 2000
  else if x.isTiny then power 2 (-2000)
  else x.rest * power 2 x.twos * power 5 x.fives

/-- Whether a number lies between zero and one. -/
def isInUnit (x : Factored) : Bool := x.rest == 0 || (0 < x.rest && x.magnitude ≤ 1)

/-- Whether a number is greater than a count. -/
def exceeds (x : Factored) (n : Nat) : Bool := 0 < x.rest && (n : Rat) < x.magnitude

end Factored

end Rowmap
