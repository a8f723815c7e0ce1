import Mathlib.Algebra.Order.Ring.Int
import Mathlib.Algebra.Order.Ring.Nat

/-!
# Machine arithmetic

Natural and integer readings of fixed-width arithmetic: wrapping, saturating and checked
operations on `w`-bit integers.
-/

namespace Misc

/-- The wrapping result of an unsigned `w`-bit operation whose exact result is `n`. -/
def wrap (w n : Nat) : Nat := n % 2 ^ w

/-- The largest unsigned `w`-bit value. -/
def unsignedMax (w : Nat) : Nat := 2 ^ w - 1

/-- `a.saturating_add(b)` on unsigned `w`-bit values. -/
def saturatingAdd (w a b : Nat) : Nat := min (a + b) (unsignedMax w)

/-- `a.saturating_mul(b)` on unsigned `w`-bit values. -/
def saturatingMul (w a b : Nat) : Nat := min (a * b) (unsignedMax w)

/-- `a.checked_add(b)` on unsigned `w`-bit values. -/
def checkedAdd (w a b : Nat) : Option Nat := if a + b ≤ unsignedMax w then some (a + b) else none

/-- `a.checked_div(b)` on unsigned values. -/
def checkedDiv (a b : Nat) : Option Nat := if b = 0 then none else some (a / b)

/-- The largest signed `w`-bit value. -/
def signedMax (w : Nat) : Int := 2 ^ (w - 1) - 1

/-- The smallest signed `w`-bit value. -/
def signedMin (w : Nat) : Int := -2 ^ (w - 1)

/-- The checked result of a signed `w`-bit operation whose exact result is `x`. -/
def checked (w : Nat) (x : Int) : Option Int :=
  if signedMin w ≤ x ∧ x ≤ signedMax w then some x else none

/-- The saturated result of a signed `w`-bit operation whose exact result is `x`. -/
def saturatingSigned (w : Nat) (x : Int) : Int := max (signedMin w) (min x (signedMax w))

/-- The cast of a signed value to an unsigned `w`-bit one, `x as u64`. -/
def castUnsigned (w : Nat) (x : Int) : Nat := (x % 2 ^ w).toNat

/-- `a - b` on unsigned values; `none` when it panics. -/
def panickingSub (a b : Nat) : Option Nat := if b ≤ a then some (a - b) else none

/-- `a * b` on unsigned `w`-bit values; `none` when it panics. -/
def panickingMul (w a b : Nat) : Option Nat := if a * b ≤ unsignedMax w then some (a * b) else none

/-- `x.div_euclid(d)` on signed `w`-bit values; `none` when it panics. -/
def panickingDivEuclid (w : Nat) (x d : Int) : Option Int :=
  if d = 0 then none else checked w (x / d)

theorem wrap_of_lt {w n : Nat} (h : n < 2 ^ w) : wrap w n = n := Nat.mod_eq_of_lt h

theorem wrap_lt (w n : Nat) : wrap w n < 2 ^ w := Nat.mod_lt _ (Nat.two_pow_pos w)

theorem checked_of_fits {w : Nat} {x : Int} (h : signedMin w ≤ x ∧ x ≤ signedMax w) :
    checked w x = some x := if_pos h

theorem checked_eq_some {w : Nat} {x y : Int} (h : checked w x = some y) : y = x := by
  unfold checked at h
  split at h
  · exact (Option.some.inj h).symm
  · cases h

theorem fits_of_checked {w : Nat} {x y : Int} (h : checked w x = some y) :
    signedMin w ≤ x ∧ x ≤ signedMax w := by
  unfold checked at h
  split at h
  · assumption
  · cases h

/-- Dividing by a positive number keeps a value in range. -/
theorem panickingDivEuclid_pos {w : Nat} {x d : Int} (hd : 0 < d)
    (h : signedMin w ≤ x ∧ x ≤ signedMax w) : panickingDivEuclid w x d = some (x / d) := by
  have hmin : signedMin w ≤ 0 := neg_nonpos.mpr (Int.pow_nonneg (by decide))
  have hmax : 0 ≤ signedMax w := by
    have hpow : (0 : Int) < 2 ^ (w - 1) := Int.pow_pos (by decide)
    simp only [signedMax]
    omega
  unfold panickingDivEuclid
  rw [if_neg (ne_of_gt hd), checked_of_fits]
  by_cases hx : 0 ≤ x
  · exact ⟨hmin.trans (Int.ediv_nonneg hx hd.le), (Int.ediv_le_self d hx).trans h.2⟩
  · have hlow : x ≤ x / d := by
      rw [Int.le_ediv_iff_mul_le hd]
      have hmul := Int.mul_le_mul_of_nonpos_left (show x ≤ 0 by omega) (show 1 ≤ d by omega)
      omega
    have hhigh : x / d < 1 := by
      rw [Int.ediv_lt_iff_lt_mul hd]
      omega
    exact ⟨h.1.trans hlow, by omega⟩

end Misc
