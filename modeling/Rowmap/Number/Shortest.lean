import Rowmap.Number.Binary64

/-!
# Shortest decimal text

The text of a double has the fewest digits that read back as it, and of those the nearest. With `n`
digits only the two neighbours of the value on the decimal grid can read back, so trying them for 1,
2, … digits finds the text; seventeen always suffice.
-/

namespace Rowmap

namespace Binary64

/-- The numbers that round to a positive double: the ends and whether they belong. -/
structure RoundingInterval where
  low : Rat
  high : Rat
  closed : Bool

/-- The rounding interval of `m · 2^e`. Below a power of two the gap is half as wide. -/
def roundingInterval (m : Nat) (e : Int) : RoundingInterval :=
  let at4 (k : Nat) : Rat :=
    if 2 ≤ e then (((k * Nat.pow 2 (e - 2).toNat : Nat) : Int) : Rat)
    else mkRat k (Nat.pow 2 (2 - e).toNat)
  let low := if m == Nat.pow 2 52 && minExponent < e then 4 * m - 1 else 4 * m - 2
  ⟨at4 low, at4 (4 * m + 2), m % 2 == 0⟩

/-- Whether a number rounds to the double of the interval. -/
def RoundingInterval.has (i : RoundingInterval) (x : Rat) : Bool :=
  if i.closed then i.low ≤ x && x ≤ i.high else i.low < x && x < i.high

def tenPow (k : Int) : Rat :=
  if 0 ≤ k then ((Nat.pow 10 k.toNat : Int) : Rat) else mkRat 1 (Nat.pow 10 (-k).toNat)

/-- The power of ten of the leading digit of a positive number, from a guess that is too low by at
most a few. -/
def leadingPower (x : Rat) : Nat → Int → Int
  | 0, k => k
  | fuel + 1, k => if tenPow (k + 1) ≤ x then leadingPower x fuel (k + 1) else k

/-- The digits, as a number, that read back with `n` digits, the last of them worth `10^k`. -/
def gridHit? (i : RoundingInterval) (x : Rat) (k : Int) : Option Nat :=
  let unit := tenPow k
  let below := (x / unit).floor.toNat
  let down : Rat := ((below : Int) : Rat) * unit
  let up : Rat := (((below + 1 : Nat) : Int) : Rat) * unit
  let nearestDown := x - down < up - x || (x - down == up - x && below % 2 == 0)
  let (first, second) := if nearestDown then ((below, down), (below + 1, up))
    else ((below + 1, up), (below, down))
  if i.has first.2 then some first.1 else if i.has second.2 then some second.1 else none

/-- The shortest digits of a positive number of the interval and the power of ten of the last one.
-/
def shortestFrom (i : RoundingInterval) (x : Rat) (top : Int) : Nat → Nat → Nat × Int
  | 0, n => ((x / tenPow (top - n)).floor.toNat, top - n)
  | fuel + 1, n =>
    match gridHit? i x (top - n) with
    | some d => (d, top - n)
    | none => shortestFrom i x top fuel (n + 1)

/-- The shortest digits of `m · 2^e`, for positive `m`, and the power of ten of the last one. -/
def shortestDigits (m : Nat) (e : Int) : Nat × Int :=
  match toRat? (.finite false m e) with
  | some x =>
    let guess := ((m.log2 : Int) + e) * 30103 / 100000 - 2
    shortestFrom (roundingInterval m e) x (leadingPower x 5 guess) 17 0
  | none => (0, 0)

/-- The exponent of ten from which a double is written with an exponent. -/
def positionalEnd : Int := 16

/-- The exponent of ten below which a double is written with an exponent. -/
def positionalStart : Int := -4

/-- Digits without zeros at the end; at least one stays. -/
def trimZeros (ds : List Char) : List Char :=
  match (ds.reverse.dropWhile (· == '0')).reverse with
  | [] => ['0']
  | r => r

/-- The text of digits with the leading one worth `10^top`: with a point and at least one digit
after it in the middle range, with an exponent of at least two digits outside. -/
def layout (ds : List Char) (top : Int) : List Char :=
  let ds := trimZeros ds
  if positionalStart ≤ top && top < positionalEnd then
    if top < 0 then "0.".toList ++ List.replicate (-top - 1).toNat '0' ++ ds
    else
      let whole := top.toNat + 1
      let padded := ds ++ List.replicate (whole - ds.length) '0'
      let fraction := padded.drop whole
      padded.take whole ++ '.' :: (if fraction.isEmpty then ['0'] else fraction)
  else
    let point := if ds.length == 1 then [] else '.' :: ds.drop 1
    let exponent := Nat.toDigits 10 top.natAbs
    let padded := List.replicate (2 - exponent.length) '0' ++ exponent
    ds.take 1 ++ point ++ ['e', if top < 0 then '-' else '+'] ++ padded

def text : Binary64 → String
  | .notANumber _ => "nan"
  | .infinite negative => if negative then "-inf" else "inf"
  | .finite negative m e =>
    let sign := if negative then ['-'] else []
    if m == 0 then String.ofList (sign ++ "0.0".toList)
    else
      let (d, last) := shortestDigits m e
      let ds := Nat.toDigits 10 d
      String.ofList (sign ++ layout ds (last + ds.length - 1))

end Binary64

end Rowmap
