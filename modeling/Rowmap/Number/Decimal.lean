import Rowmap.Number.Scientific

/-!
# Decimal numbers

A decimal keeps the digits that were written, zeros at the end included: `1.50` and `1.5` are equal
numbers with different texts.
-/

namespace Rowmap

/-- A decimal number. The tag of one that is no number tells it apart from others. -/
inductive Decimal where
  | finite (n : Scientific)
  | infinite (negative : Bool)
  | notANumber (negative signals : Bool) (payload : String) (tag : Nat)
  deriving DecidableEq, Repr

namespace Decimal

/-- The decimal that a text writes. Underscores may stand anywhere in it, and a payload loses the
zeros in front. -/
def ofText? (tag : Nat) (s : String) : Option Decimal :=
  (NumberText.ofChars? ((Text.tidied s).filter (· != '_'))).map fun x ↦
    match x with
    | .finite n => .finite n
    | .infinite negative => .infinite negative
    | .notANumber negative signals payload =>
      .notANumber negative signals (String.ofList (payload.toList.dropWhile (· == '0'))) tag

/-- The text of the digits of a finite decimal: positional while the exponent is not positive and at
most six zeros follow the point, with an exponent otherwise. -/
def layout (ds : List Char) (exponent : Int) : List Char :=
  let left := exponent + ds.length
  let point := if exponent ≤ 0 && -6 < left then left else 1
  let body :=
    if point ≤ 0 then "0.".toList ++ List.replicate (-point).toNat '0' ++ ds
    else if (ds.length : Int) ≤ point then ds ++ List.replicate (point - ds.length).toNat '0'
    else ds.take point.toNat ++ '.' :: ds.drop point.toNat
  let shift := left - point
  if shift == 0 then body
  else body ++ ['E', if shift < 0 then '-' else '+'] ++ Nat.toDigits 10 shift.natAbs

def text : Decimal → String
  | .finite n =>
    (if n.negative then "-" else "") ++
      String.ofList (layout (Nat.toDigits 10 n.coefficient) n.exponent)
  | .infinite negative => if negative then "-Infinity" else "Infinity"
  | .notANumber negative signals payload _ =>
    (if negative then "-" else "") ++ (if signals then "sNaN" else "NaN") ++ payload

/-- The whole number towards zero of a finite decimal. One with no digit before the point is zero,
whatever its exponent. -/
def truncate? : Decimal → Option Int
  | .finite n =>
    let size : Int := (Nat.toDigits 10 n.coefficient).length + n.exponent
    some (Text.signed n.negative
      (if size ≤ 0 then 0
        else if 0 ≤ n.exponent then n.coefficient * Nat.pow 10 n.exponent.toNat
        else n.coefficient / Nat.pow 10 (-n.exponent).toNat))
  | _ => none

/-- Whether a decimal is zero, of either sign. -/
def isZero : Decimal → Bool
  | .finite n => n.coefficient == 0
  | _ => false

end Decimal

end Rowmap
