import Mathlib.Algebra.Order.Floor.Semifield
import Mathlib.Data.Rat.Floor
import Mathlib.Tactic.Ring
import Rowmap.Number.Factored

/-!
# Numbers as rationals

What a factored number stands for. Binary and decimal numbers are truncated by arithmetic on their
own digits, and the result depends on nothing but the rational number, so numbers of different kinds
that are equal are truncated alike.
-/

namespace Rowmap

/-! ## Truncation -/

/-- The whole number towards zero of a rational. -/
def towardZero (q : ℚ) : Int := if 0 ≤ q then ⌊q⌋₊ else -⌊-q⌋₊

theorem towardZero_signed (negative : Bool) (m : Nat) {x : ℚ} (hx : 0 ≤ x) :
    towardZero ((Text.signed negative m : Int) * x) = Text.signed negative ⌊m * x⌋₊ := by
  have hmul : 0 ≤ (m : ℚ) * x := mul_nonneg (Nat.cast_nonneg m) hx
  cases negative with
  | false => simp [towardZero, Text.signed, hmul]
  | true =>
    have hcast : ((Text.signed true m : Int) : ℚ) * x = -(m * x) := by simp [Text.signed]
    rw [hcast, towardZero]
    -- zero has no sign as a rational, and is cut to zero from either side
    obtain hzero | hpos := hmul.eq_or_lt
    · simp [Text.signed, ← hzero]
    · simp [Text.signed, not_le.mpr hpos]

theorem towardZero_intCast (n : Int) : towardZero n = n := by
  rw [towardZero]
  split
  · rename_i h
    have hn : 0 ≤ n := by exact_mod_cast h
    lift n to ℕ using hn
    simp
  · rename_i h
    have hn : 0 ≤ -n := by
      have : (n : ℚ) < 0 := not_le.mp h
      have : n < 0 := by exact_mod_cast this
      omega
    obtain ⟨m, hm⟩ := Int.eq_ofNat_of_zero_le hn
    have hcast : -(n : ℚ) = (m : ℚ) := by exact_mod_cast hm
    rw [hcast, Nat.floor_natCast]
    omega

/-- A number times a power that may lie below the line, rounded down. -/
theorem floor_mul_zpow (p m : Nat) (e : Int) :
    ⌊(m : ℚ) * (p : ℚ) ^ e⌋₊ = if 0 ≤ e then m * p ^ e.toNat else m / p ^ (-e).toNat := by
  split
  · rename_i h
    obtain ⟨k, rfl⟩ := Int.eq_ofNat_of_zero_le h
    have hcast : (m : ℚ) * (p : ℚ) ^ (k : Int) = ((m * p ^ k : Nat) : ℚ) := by push_cast; rfl
    rw [hcast, Nat.floor_natCast]
    rfl
  · rename_i h
    obtain ⟨k, hk⟩ := Int.eq_ofNat_of_zero_le (show 0 ≤ -e by omega)
    have hcast : (m : ℚ) * (p : ℚ) ^ e = (m : ℚ) / ((p ^ k : Nat) : ℚ) := by
      rw [show e = -(k : Int) by omega, zpow_neg, zpow_natCast, ← div_eq_mul_inv, Nat.cast_pow]
    rw [hcast, Nat.floor_div_eq_div, hk]
    rfl

/-! ## Factored numbers -/

namespace Factored

/-- The rational number that a factored number stands for. -/
def toRat (x : Factored) : ℚ := x.rest * 2 ^ x.twos * 5 ^ x.fives

/-- What is left, multiplied by the factor as often as it divides, is the number again. -/
theorem divideOut_mul_pow (p n : Nat) : (divideOut p n).2 * p ^ (divideOut p n).1 = n := by
  fun_induction divideOut p n with
  | case1 n h k rest heq ih =>
    rw [heq] at ih
    show rest * p ^ (k + 1) = n
    rw [Nat.pow_succ, ← Nat.mul_assoc, ih, Nat.div_mul_cancel (Nat.dvd_of_mod_eq_zero h.2.2)]
  | case2 n _ => simp

theorem natCast_divideOut (p n : Nat) :
    (n : ℚ) = (divideOut p n).2 * (p : ℚ) ^ ((divideOut p n).1 : Int) := by
  rw [zpow_natCast]
  exact_mod_cast (divideOut_mul_pow p n).symm

theorem eq_signed_natAbs (n : Int) : n = Text.signed (n < 0) n.natAbs := by
  by_cases h : n < 0
  · rw [decide_eq_true h, Text.signed, if_pos rfl]
    omega
  · rw [decide_eq_false h, Text.signed, if_neg Bool.false_ne_true]
    omega

theorem cast_signed (negative : Bool) (m : Nat) :
    ((Text.signed negative m : Int) : ℚ) = (if negative then -1 else 1) * m := by
  cases negative <;> simp [Text.signed]

theorem divideOut_ne_zero {p n : Nat} (hn : n ≠ 0) : (divideOut p n).2 ≠ 0 := by
  intro h
  have hmul := divideOut_mul_pow p n
  rw [h, Nat.zero_mul] at hmul
  exact hn hmul.symm

theorem ofProduct_of_ne_zero {n : Int} (hn : n ≠ 0) (a b : Int) :
    ofProduct n a b = ⟨Text.signed (n < 0) (divideOut 5 (divideOut 2 n.natAbs).2).2,
      a + (divideOut 2 n.natAbs).1, b + (divideOut 5 (divideOut 2 n.natAbs).2).1⟩ := by
  rw [ofProduct, if_neg hn]

theorem toRat_ofProduct (n a b : Int) : (ofProduct n a b).toRat = n * 2 ^ a * 5 ^ b := by
  by_cases hn : n = 0
  · simp [hn, ofProduct, zero, toRat]
  · have hcast : (n : ℚ) = (if decide (n < 0) then -1 else 1) * (n.natAbs : ℚ) := by
      rw [← cast_signed, ← eq_signed_natAbs]
    have htwos := natCast_divideOut 2 n.natAbs
    have hfives := natCast_divideOut 5 (divideOut 2 n.natAbs).2
    push_cast at htwos hfives
    rw [ofProduct_of_ne_zero hn, toRat, cast_signed, hcast, htwos, hfives,
      zpow_add₀ two_ne_zero, zpow_add₀ (by norm_num)]
    ring

theorem rest_ofProduct_eq_zero {n a b : Int} : (ofProduct n a b).rest = 0 ↔ n = 0 := by
  constructor
  · intro h
    by_contra hn
    rw [ofProduct_of_ne_zero hn] at h
    have hne := @divideOut_ne_zero 5 _ (@divideOut_ne_zero 2 _ (Int.natAbs_ne_zero.mpr hn))
    simp only [Text.signed] at h
    split at h <;> omega
  · rintro rfl
    rfl

@[simp] theorem toRat_ofInt (n : Int) : (ofInt n).toRat = n := by
  simp [ofInt, toRat_ofProduct]

/-- A finite double is truncated as the number that it stands for. -/
theorem truncate?_of_ofBinary64? {x : Binary64} {f : Factored} (h : ofBinary64? x = some f) :
    x.truncate? = some (towardZero f.toRat) := by
  cases x with
  | finite negative m e =>
    obtain rfl := Option.some.inj h
    have hpow : (0 : ℚ) ≤ ((2 : Nat) : ℚ) ^ e := zpow_nonneg (Nat.cast_nonneg 2) e
    rw [toRat_ofProduct, zpow_zero, mul_one]
    exact congrArg some ((congrArg _ (floor_mul_zpow 2 m e)).symm.trans
      (towardZero_signed negative m hpow).symm)
  | infinite negative => exact absurd h (Option.some_ne_none _).symm
  | notANumber tag => exact absurd h (Option.some_ne_none _).symm

theorem truncate?_of_ofDecimal? {x : Decimal} {f : Factored} (h : ofDecimal? x = some f) :
    x.truncate? = some (towardZero f.toRat) := by
  cases x with
  | finite n =>
    obtain rfl := Option.some.inj h
    have hten : (2 : ℚ) ^ n.exponent * 5 ^ n.exponent = ((10 : Nat) : ℚ) ^ n.exponent := by
      rw [← mul_zpow]
      norm_num
    have hpow : (0 : ℚ) ≤ ((10 : Nat) : ℚ) ^ n.exponent :=
      zpow_nonneg (Nat.cast_nonneg 10) n.exponent
    rw [toRat_ofProduct, mul_assoc, hten, towardZero_signed _ _ hpow, floor_mul_zpow,
      Decimal.truncate?]
    congr 2
    split
    -- more places behind the point than digits: nothing is left in front of it
    · rename_i hsize
      have hexponent : ¬0 ≤ n.exponent := by
        have hpos := @Nat.length_toDigits_pos 10 n.coefficient
        omega
      have hlt : n.coefficient < 10 ^ (-n.exponent).toNat := by
        refine (Nat.length_toDigits_le_iff (by decide) (by omega)).mp ?_
        omega
      rw [if_neg hexponent, Nat.div_eq_of_lt hlt]
    · rfl
  | infinite negative => exact absurd h (Option.some_ne_none _).symm
  | notANumber negative signals payload tag => exact absurd h (Option.some_ne_none _).symm

end Factored

end Rowmap
