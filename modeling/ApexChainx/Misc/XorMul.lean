import Mathlib.Data.Int.GCD
import Mathlib.Data.Int.ModEq
import Mathlib.Data.List.Basic
import Mathlib.Tactic.Ring

/-!
# Xor-multiply hashes

Hashes that fold words into a state by `state = (state ^ word) * p`, for a fixed odd `p`. A step
can be undone, so two chains that part stay apart until words that differ bring them together
again. How far apart two chains of equal length are is a polynomial in `p` whose coefficients, the
drifts, are small when the words are; for the prime of the 64-bit FNV hash, four bytes are too few
for it to vanish (`fnv_window_inj`).
-/

namespace Misc

section Chains

variable {w : Nat} {p q : BitVec w} {x y a b : BitVec w}

/-- One step of the hash. -/
def xorMul (p hash word : BitVec w) : BitVec w := (hash ^^^ word) * p

theorem mul_right_inj_of_unit (hp : p * q = 1#w) : x * p = y * p ↔ x = y := by
  constructor
  · intro h
    have hcancel : x * p * q = y * p * q := by rw [h]
    simpa [BitVec.mul_assoc, hp] using hcancel
  · rintro rfl
    rfl

theorem xorMul_inj_hash (hp : p * q = 1#w) : xorMul p x a = xorMul p y a ↔ x = y := by
  rw [xorMul, xorMul, mul_right_inj_of_unit hp, BitVec.xor_left_inj]

theorem xorMul_inj_word (hp : p * q = 1#w) : xorMul p x a = xorMul p x b ↔ a = b := by
  rw [xorMul, xorMul, mul_right_inj_of_unit hp, BitVec.xor_right_inj]

/-- A chain of steps can be undone. -/
theorem foldl_xorMul_inj (hp : p * q = 1#w) (words : List (BitVec w)) :
    words.foldl (xorMul p) x = words.foldl (xorMul p) y ↔ x = y := by
  induction words generalizing x y with
  | nil => rfl
  | cons a words ih => rw [List.foldl_cons, List.foldl_cons, ih, xorMul_inj_hash hp]

/-! ## Drifts -/

/-- What xoring a word adds to a state. -/
def nudge (x a : BitVec w) : Int := ((x ^^^ a).toNat : Int) - x.toNat

/-- A word of `k` bits changes the last `k` bits only. -/
theorem nudge_bounds {k : Nat} (ha : a.toNat < 2 ^ k) :
    -(2 ^ k - 1) ≤ nudge x a ∧ nudge x a ≤ 2 ^ k - 1 := by
  have hhigh : (x.toNat ^^^ a.toNat) / 2 ^ k = x.toNat / 2 ^ k := by
    rw [Nat.xor_div_two_pow, Nat.div_eq_of_lt ha, Nat.xor_zero]
  have hxor := Nat.div_add_mod (x.toNat ^^^ a.toNat) (2 ^ k)
  have hx := Nat.div_add_mod x.toNat (2 ^ k)
  have hxorlow := Nat.mod_lt (x.toNat ^^^ a.toNat) (Nat.two_pow_pos k)
  have hlow := Nat.mod_lt x.toNat (Nat.two_pow_pos k)
  rw [hhigh] at hxor
  have hpow : ((2 ^ k : Nat) : Int) = 2 ^ k := by push_cast; rfl
  simp only [nudge, BitVec.toNat_xor]
  omega

/-- How much further two chains drift apart at each step. -/
def drifts (p : BitVec w) : BitVec w → BitVec w → List (BitVec w) → List (BitVec w) → List Int
  | x, y, a :: as, b :: bs =>
    (nudge x a - nudge y b) :: drifts p (xorMul p x a) (xorMul p y b) as bs
  | _, _, _, _ => []

theorem length_drifts {as bs : List (BitVec w)} (hlen : as.length = bs.length) :
    (drifts p x y as bs).length = as.length := by
  induction as generalizing x y bs with
  | nil => simp [drifts]
  | cons a as ih =>
    cases bs with
    | nil => cases hlen
    | cons b bs => simpa [drifts] using ih (Nat.succ.inj hlen)

theorem drifts_bounds {k : Nat} {as bs : List (BitVec w)} (has : ∀ a ∈ as, a.toNat < 2 ^ k)
    (hbs : ∀ b ∈ bs, b.toNat < 2 ^ k) :
    ∀ e ∈ drifts p x y as bs, -(2 * (2 ^ k - 1)) ≤ e ∧ e ≤ 2 * (2 ^ k - 1) := by
  induction as generalizing x y bs with
  | nil => simp [drifts]
  | cons a as ih =>
    cases bs with
    | nil => simp [drifts]
    | cons b bs =>
      intro e he
      simp only [drifts, List.mem_cons] at he
      rcases he with rfl | he
      · have hx := nudge_bounds (x := x) (has a List.mem_cons_self)
        have hy := nudge_bounds (x := y) (hbs b List.mem_cons_self)
        omega
      · exact ih (fun a ha => has a (List.mem_cons_of_mem _ ha))
          (fun b hb => hbs b (List.mem_cons_of_mem _ hb)) e he

/-- Chains that start together and do not drift apart run over the same words. -/
theorem eq_of_drifts_zero {as bs : List (BitVec w)} (hlen : as.length = bs.length)
    (hzero : ∀ e ∈ drifts p x x as bs, e = 0) : as = bs := by
  induction as generalizing x bs with
  | nil => exact (List.length_eq_zero_iff.mp hlen.symm).symm
  | cons a as ih =>
    cases bs with
    | nil => cases hlen
    | cons b bs =>
      simp only [drifts, List.mem_cons, forall_eq_or_imp] at hzero
      have hsame : (x ^^^ a).toNat = (x ^^^ b).toNat := by
        have hnudge := hzero.1
        simp only [nudge] at hnudge
        omega
      obtain rfl := (BitVec.xor_right_inj x).mp (BitVec.eq_of_toNat_eq hsame)
      rw [ih (Nat.succ.inj hlen) hzero.2]

/-- One more step: the distance, and the drift, times `p`. -/
def spread (p : BitVec w) (d e : Int) : Int := (d + e) * p.toNat

theorem xorMul_sub {d : Int} (h : (x.toNat : Int) - y.toNat ≡ d [ZMOD 2 ^ w]) :
    ((xorMul p x a).toNat : Int) - (xorMul p y b).toNat ≡
      spread p d (nudge x a - nudge y b) [ZMOD 2 ^ w] := by
  have hx : ((xorMul p x a).toNat : Int) ≡ (x.toNat + nudge x a) * p.toNat [ZMOD 2 ^ w] := by
    simp only [xorMul, nudge, BitVec.toNat_mul]
    push_cast
    rw [add_sub_cancel]
    exact Int.mod_modEq _ _
  have hy : ((xorMul p y b).toNat : Int) ≡ (y.toNat + nudge y b) * p.toNat [ZMOD 2 ^ w] := by
    simp only [xorMul, nudge, BitVec.toNat_mul]
    push_cast
    rw [add_sub_cancel]
    exact Int.mod_modEq _ _
  refine (hx.sub hy).trans ?_
  have hsplit : ((x.toNat : Int) + nudge x a) * p.toNat - (y.toNat + nudge y b) * p.toNat =
      ((x.toNat - y.toNat) + (nudge x a - nudge y b)) * p.toNat := by ring
  rw [hsplit]
  exact (h.add_right _).mul_right _

/-- The distance of two chains is the polynomial of their drifts. -/
theorem foldl_xorMul_sub {as bs : List (BitVec w)} (hlen : as.length = bs.length) {d : Int}
    (h : (x.toNat : Int) - y.toNat ≡ d [ZMOD 2 ^ w]) :
    ((as.foldl (xorMul p) x).toNat : Int) - (bs.foldl (xorMul p) y).toNat ≡
      (drifts p x y as bs).foldl (spread p) d [ZMOD 2 ^ w] := by
  induction as generalizing x y bs d with
  | nil =>
    obtain rfl := List.length_eq_zero_iff.mp hlen.symm
    exact h
  | cons a as ih =>
    cases bs with
    | nil => cases hlen
    | cons b bs => exact ih (Nat.succ.inj hlen) (xorMul_sub h)

end Chains

/-! ## The 64-bit FNV prime -/

/-- The prime of the 64-bit FNV hashes, `2 ^ 40 + 435`. -/
def fnvPrime : BitVec 64 := 0x100000001b3#64

theorem fnvPrime_unit : fnvPrime * 0xce965057aff6957b#64 = 1#64 := by decide

/-- A cubic in the prime with small coefficients vanishes modulo `2 ^ 64` only when they all
do. -/
theorem fnv_cubic_eq_zero {a b c d k : Int} (ha : -510 ≤ a ∧ a ≤ 510) (hb : -510 ≤ b ∧ b ≤ 510)
    (hc : -510 ≤ c ∧ c ≤ 510) (hd : -510 ≤ d ∧ d ≤ 510)
    (h : ((a * 1099511628211 + b) * 1099511628211 + c) * 1099511628211 + d = 2 ^ 64 * k) :
    a = 0 ∧ b = 0 ∧ c = 0 ∧ d = 0 := by
  -- the part below `2 ^ 40` vanishes by itself
  have hlow : 82312875 * a + 189225 * b + 435 * c + d = 0 := by omega
  -- its coefficients are powers of 435, so the small ones follow each other
  obtain ⟨s, hs⟩ : ∃ s, s = 435 * a + b := ⟨_, rfl⟩
  obtain ⟨t, ht⟩ : ∃ t, t = 189225 * a + 435 * b + c := ⟨_, rfl⟩
  have ht1 : -1 ≤ t ∧ t ≤ 1 := by omega
  have hs1 : -1 ≤ s ∧ s ≤ 1 := by omega
  have ha1 : -1 ≤ a ∧ a ≤ 1 := by omega
  -- and the part above it is too small for the 24 bits that are left
  have hhigh : 189225 * a + 435 * s + t = 0 := by omega
  omega

/-- Four small drifts that bring two chains together are zero. -/
theorem fnv_drifts_eq_zero {es : List Int} (hlen : es.length ≤ 4)
    (hes : ∀ e ∈ es, -510 ≤ e ∧ e ≤ 510)
    (h : es.foldl (spread fnvPrime) 0 ≡ 0 [ZMOD 2 ^ 64]) : ∀ e ∈ es, e = 0 := by
  -- with zeros in front there are exactly four
  obtain ⟨zeros, hzeros⟩ : ∃ zeros, zeros = List.replicate (4 - es.length) (0 : Int) := ⟨_, rfl⟩
  have hfront : ∀ n : Nat, (List.replicate n (0 : Int)).foldl (spread fnvPrime) 0 = 0 := by
    intro n
    induction n with
    | zero => rfl
    | succ n ih => simpa [List.replicate_succ, spread] using ih
  have hfold : (zeros ++ es).foldl (spread fnvPrime) 0 ≡ 0 [ZMOD 2 ^ 64] := by
    rwa [List.foldl_append, hzeros, hfront]
  have hfour : (zeros ++ es).length = 4 := by
    rw [List.length_append, hzeros, List.length_replicate]
    omega
  have hbounds : ∀ e ∈ zeros ++ es, -510 ≤ e ∧ e ≤ 510 := by
    intro e he
    rcases List.mem_append.mp he with he | he
    · rw [hzeros] at he
      rw [List.eq_of_mem_replicate he]
      omega
    · exact hes e he
  have hall : ∀ e ∈ zeros ++ es, e = 0 := by
    obtain ⟨a, rest, hcons⟩ := List.exists_of_length_succ _ hfour
    have hthree : rest.length = 3 := by simpa [hcons] using hfour
    obtain ⟨b, c, d, rfl⟩ := List.length_eq_three.mp hthree
    rw [hcons] at hfold hbounds ⊢
    simp only [List.mem_cons, List.not_mem_nil, or_false, forall_eq_or_imp, forall_eq] at hbounds ⊢
    obtain ⟨ha, hb, hc, hd⟩ := hbounds
    have hprime : ((fnvPrime.toNat : Nat) : Int) = 1099511628211 := by decide
    simp only [List.foldl_cons, List.foldl_nil, spread, hprime, zero_add] at hfold
    obtain ⟨k, hk⟩ := Int.modEq_zero_iff_dvd.mp hfold
    -- the last multiplication is undone
    have hdvd : (2 : Int) ^ 64 ∣
        ((a * 1099511628211 + b) * 1099511628211 + c) * 1099511628211 + d :=
      Int.dvd_of_dvd_mul_left_of_gcd_one ⟨k, hk⟩ (by decide)
    obtain ⟨m, hm⟩ := hdvd
    exact fnv_cubic_eq_zero ha hb hc hd hm
  exact fun e he => hall e (List.mem_append_right _ he)

/-- Chains that start together over different windows of at most four bytes end apart. -/
theorem fnv_window_inj {as bs : List (BitVec 64)} {x : BitVec 64}
    (hlen : as.length = bs.length) (hshort : as.length ≤ 4) (has : ∀ a ∈ as, a.toNat < 2 ^ 8)
    (hbs : ∀ b ∈ bs, b.toNat < 2 ^ 8) :
    as.foldl (xorMul fnvPrime) x = bs.foldl (xorMul fnvPrime) x ↔ as = bs := by
  constructor
  · intro h
    have hdistance := foldl_xorMul_sub (p := fnvPrime) (x := x) (y := x) (d := 0) hlen
      (by rw [sub_self])
    rw [h, sub_self] at hdistance
    refine eq_of_drifts_zero hlen (fnv_drifts_eq_zero ?_ ?_ hdistance.symm)
    · rw [length_drifts hlen]
      exact hshort
    · exact drifts_bounds has hbs
  · rintro rfl
    rfl

end Misc
