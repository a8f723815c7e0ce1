import Mathlib.Tactic.LinearCombination
import Mathlib.Tactic.NormNum
import Mathlib.Tactic.Ring
import Mathlib.Tactic.Zify
import ApexChainx.Proofs.ConfigInvariant

/-!
# The configuration hash separates configurations

Every step of the hash multiplies and adds modulo `2^64` and then takes off the modulus at most
twice. Up to these carries the hash is linear in the three fields, so two configurations with
one hash give a linear congruence modulo `2^64` between their differences and the differences of
the carries. The fields are so small against `2^64` that a few multiples of the congruence,
chosen with small coefficients, force the carries and then the fields to agree.
-/

namespace ApexChainx

open Host Misc

/-! ## The hash as a linear form -/

/-- Reducing modulo `2^64` and then by the modulus takes off at most twice the modulus. -/
theorem wrap_mod_carry (x : Nat) : ∃ q k : Nat, k ≤ 2 ∧
    x = wrap 64 x % configHashModulus + 2 ^ 64 * q + configHashModulus * k := by
  refine ⟨x / 2 ^ 64, wrap 64 x / configHashModulus, ?_, ?_⟩
  · simp only [wrap, configHashModulus]
    omega
  · have hx := Nat.div_add_mod x (2 ^ 64)
    have hy := Nat.div_add_mod (wrap 64 x) configHashModulus
    simp only [wrap] at hy ⊢
    omega

/-- The wraps inside one step of the hash are absorbed by the last one. -/
theorem foldConfigHashField_fst (hash power field : Nat) :
    (foldConfigHashField (hash, power) field).1 =
      wrap 64 ((hash * configHashBase + field) * power) % configHashModulus := by
  have habsorb : wrap 64 (wrap 64 (wrap 64 (hash * configHashBase) + field) * power) =
      wrap 64 ((hash * configHashBase + field) * power) := by
    simp [wrap, Nat.mul_mod, Nat.add_mod]
  simp only [foldConfigHashField, habsorb]

theorem castUnsigned_of_small {x : Int} (h : 0 ≤ x ∧ x < 2 ^ 64) :
    (castUnsigned 64 x : Int) = x := by
  simp only [castUnsigned]
  omega

/-- The first field leaves its offset from the base. -/
theorem foldConfigHashField_first {threshold : Nat} (h : threshold ≤ 1440) :
    foldConfigHashField (1, 1) threshold = (configHashBase + threshold, configHashBase) := by
  refine Prod.ext ?_ (by rfl)
  rw [foldConfigHashField_fst]
  simp only [wrap, configHashBase, configHashModulus]
  omega

/-- The hash of a configuration, up to the carries of its three last steps. -/
theorem severityConfigHash_linear {cfg : SLAConfig} (h : InBounds cfg) :
    ∃ q k₂ k₃ k₄ : Int, (0 ≤ k₂ ∧ k₂ ≤ 2) ∧ (0 ≤ k₃ ∧ k₃ ≤ 2) ∧ (0 ≤ k₄ ∧ k₄ ≤ 2) ∧
      (severityConfigHash cfg : Int) =
        (configHashBase : Int) ^ 3 *
            ((configHashBase : Int) ^ 3 * cfg.threshold_minutes +
              (configHashBase : Int) ^ 2 * cfg.penalty_per_minute + cfg.reward_base +
              (configHashBase : Int) ^ 4) +
          configHashFinalMix - (configHashBase : Int) ^ 4 * configHashModulus * k₂ -
        configHashBase * configHashModulus * k₃ - configHashModulus * k₄ - 2 ^ 64 * q := by
  obtain ⟨ht, hp, hr⟩ := h
  have hpenalty := castUnsigned_of_small (x := cfg.penalty_per_minute) (by omega)
  have hreward := castUnsigned_of_small (x := cfg.reward_base) (by omega)
  have hpower : ∀ hash field, (foldConfigHashField (hash, configHashBase) field).2 =
      configHashBase ^ 2 := fun _ _ => by rfl
  -- the three steps whose result may wrap, from the first to the last
  obtain ⟨q₂, k₂, hk₂, h₂⟩ := wrap_mod_carry
    (((configHashBase + cfg.threshold_minutes) * configHashBase +
      castUnsigned 64 cfg.penalty_per_minute) * configHashBase)
  have hash₂ := foldConfigHashField_fst (configHashBase + cfg.threshold_minutes) configHashBase
    (castUnsigned 64 cfg.penalty_per_minute)
  rw [← hash₂] at h₂
  generalize hfold₂ : foldConfigHashField (configHashBase + cfg.threshold_minutes, configHashBase)
    (castUnsigned 64 cfg.penalty_per_minute) = acc₂ at h₂
  obtain ⟨q₃, k₃, hk₃, h₃⟩ := wrap_mod_carry
    ((acc₂.1 * configHashBase + castUnsigned 64 cfg.reward_base) * configHashBase ^ 2)
  rw [← foldConfigHashField_fst] at h₃
  generalize hfold₃ : foldConfigHashField (acc₂.1, configHashBase ^ 2)
    (castUnsigned 64 cfg.reward_base) = acc₃ at h₃
  obtain ⟨q₄, k₄, hk₄, h₄⟩ := wrap_mod_carry (acc₃.1 * configHashBase + configHashFinalMix)
  have hfinish : severityConfigHash cfg =
      wrap 64 (acc₃.1 * configHashBase + configHashFinalMix) % configHashModulus := by
    have hacc₂ : acc₂ = (acc₂.1, configHashBase ^ 2) :=
      Prod.ext rfl (hfold₂ ▸ hpower _ _)
    simp only [severityConfigHash, foldConfigHashFields, configHashFields, List.foldl_cons,
      List.foldl_nil, foldConfigHashField_first ht.2, hfold₂]
    rw [hacc₂, hfold₃]
    simp [finishConfigHash, wrap, Nat.add_mod]
  rw [← hfinish] at h₄
  refine ⟨configHashBase ^ 4 * q₂ + configHashBase * q₃ + q₄, k₂, k₃, k₄, by omega, by omega,
    by omega, ?_⟩
  zify at h₂ h₃ h₄
  rw [hpenalty] at h₂
  rw [hreward] at h₃
  linear_combination -(configHashBase : Int) ^ 4 * h₂ - (configHashBase : Int) * h₃ - h₄

/-! ## Small multiples of the congruence -/

/-- The differences of the fields of two configurations. -/
structure FieldsDiffer (t p r : Int) : Prop where
  threshold : -1439 ≤ t ∧ t ≤ 1439
  penalty : -9999 ≤ p ∧ p ≤ 9999
  reward : -99999 ≤ r ∧ r ≤ 99999

/-- One hash for two configurations: their differences are congruent to those of the carries. -/
theorem severityConfigHash_congruence {a b : SLAConfig} (ha : InBounds a) (hb : InBounds b)
    (h : severityConfigHash a = severityConfigHash b) :
    ∃ q d₂ d₃ d₄ : Int, (-2 ≤ d₂ ∧ d₂ ≤ 2) ∧ (-2 ≤ d₃ ∧ d₃ ≤ 2) ∧ (-2 ≤ d₄ ∧ d₄ ≤ 2) ∧
      (configHashBase : Int) ^ 3 *
          ((configHashBase : Int) ^ 3 * ((a.threshold_minutes : Int) - b.threshold_minutes) +
            (configHashBase : Int) ^ 2 * (a.penalty_per_minute - b.penalty_per_minute) +
            (a.reward_base - b.reward_base)) -
          (configHashBase : Int) ^ 4 * configHashModulus * d₂ -
        configHashBase * configHashModulus * d₃ - configHashModulus * d₄ = 2 ^ 64 * q := by
  obtain ⟨q, k₂, k₃, k₄, hk₂, hk₃, hk₄, hhash⟩ := severityConfigHash_linear ha
  obtain ⟨q', k₂', k₃', k₄', hk₂', hk₃', hk₄', hhash'⟩ := severityConfigHash_linear hb
  refine ⟨q - q', k₂ - k₂', k₃ - k₃', k₄ - k₄', by omega, by omega, by omega, ?_⟩
  have hsame : (severityConfigHash a : Int) = severityConfigHash b := by rw [h]
  linear_combination hsame - hhash + hhash'

/-- Under one multiple of the congruence every difference of carries but zero lands far from the
multiples of `2^64`. -/
theorem carries_far : ∀ x ∈ [-2, -1, 0, 1, (2 : Int)], ∀ y ∈ [-2, -1, 0, 1, (2 : Int)],
    ∀ z ∈ [-2, -1, 0, 1, (2 : Int)], ¬ (x = 0 ∧ y = 0 ∧ z = 0) →
      249728696416969847 < (-7909051864699805087 * x - 5422705251722897735 * y -
        5685664185797763583 * z) % 2 ^ 64 ∧
      (-7909051864699805087 * x - 5422705251722897735 * y - 5685664185797763583 * z) % 2 ^ 64 <
        2 ^ 64 - 249728696416969847 := by
  decide +kernel

theorem mem_carries {d : Int} (h : -2 ≤ d ∧ d ≤ 2) : d ∈ [-2, -1, 0, 1, (2 : Int)] := by
  simp only [List.mem_cons, List.not_mem_nil, or_false]
  omega

/-- A number that stays small does not fill the gap up to a multiple of `2^64` that another
number leaves. -/
theorem not_multiple_of_far {bound x k m : Int} (hx : -bound ≤ x ∧ x ≤ bound)
    (hk : bound < k % 2 ^ 64 ∧ k % 2 ^ 64 < 2 ^ 64 - bound) : x + k ≠ 2 ^ 64 * m := by
  omega

section Congruence

variable {t p r d₂ d₃ d₄ q : Int}

/-- The multiple with weights below `2^45` leaves no room for the carries to differ. -/
theorem carries_eq_zero (hsmall : FieldsDiffer t p r) (h₂ : -2 ≤ d₂ ∧ d₂ ≤ 2)
    (h₃ : -2 ≤ d₃ ∧ d₃ ≤ 2) (h₄ : -2 ≤ d₄ ∧ d₄ ≤ 2)
    (h : (configHashBase : Int) ^ 3 *
          ((configHashBase : Int) ^ 3 * t + (configHashBase : Int) ^ 2 * p + r) -
          (configHashBase : Int) ^ 4 * configHashModulus * d₂ -
        configHashBase * configHashModulus * d₃ - configHashModulus * d₄ = 2 ^ 64 * q) :
    d₂ = 0 ∧ d₃ = 0 ∧ d₄ = 0 := by
  by_contra hne
  have hfar := carries_far d₂ (mem_carries h₂) d₃ (mem_carries h₃) d₄ (mem_carries h₄) hne
  obtain ⟨ht, hp, hr⟩ := hsmall
  have hmultiple : ∃ m : Int, -19348465882951 * t + 4452888068097 * p + 1773635998545 * r +
      (-7909051864699805087 * d₂ - 5422705251722897735 * d₃ - 5685664185797763583 * d₄) =
        2 ^ 64 * m := by
    refine ⟨141508314042280489 * q - 4396082754521826163402242194741337899908256812 * t -
      48235330111368586259536567872029490630 * p - 5807163406749305217903 * r +
      4881512185315861634702441278973350750217119927690 * d₂ +
      6448408848311265511439521 * d₃ + 70754157021140244 * d₄, ?_⟩
    simp only [configHashBase, configHashModulus] at h
    push_cast at h
    linear_combination 141508314042280489 * h
  obtain ⟨m, hm⟩ := hmultiple
  refine not_multiple_of_far ?_ hfar hm
  clear hm h hfar
  omega

/-- A multiple of `2^64` below it is zero. -/
theorem eq_zero_of_multiple {x : Int} (hx : -2 ^ 63 ≤ x ∧ x < 2 ^ 63)
    (hm : ∃ m : Int, x = 2 ^ 64 * m) : x = 0 := by
  obtain ⟨m, rfl⟩ := hm
  omega

theorem multiples_small (hsmall : FieldsDiffer t p r) :
    (-2 ^ 63 ≤ 25390027398630 * t - 3643271950826 * p - 65304504586 * r ∧
      25390027398630 * t - 3643271950826 * p - 65304504586 * r < 2 ^ 63) ∧
    (-2 ^ 63 ≤ -32968902663223 * t - 3440868578415 * p - 323582473247 * r ∧
      -32968902663223 * t - 3440868578415 * p - 323582473247 * r < 2 ^ 63) ∧
    (-2 ^ 63 ≤ 1537313748914 * t + 6274524411970 * p - 1319444516126 * r ∧
      1537313748914 * t + 6274524411970 * p - 1319444516126 * r < 2 ^ 63) := by
  obtain ⟨ht, hp, hr⟩ := hsmall
  refine ⟨⟨?_, ?_⟩, ⟨?_, ?_⟩, ⟨?_, ?_⟩⟩ <;> omega

/-- With equal carries three multiples of the congruence are equations, and they determine the
fields. -/
theorem fields_eq_zero (hsmall : FieldsDiffer t p r)
    (h : (configHashBase : Int) ^ 3 *
        ((configHashBase : Int) ^ 3 * t + (configHashBase : Int) ^ 2 * p + r) = 2 ^ 64 * q) :
    t = 0 ∧ p = 0 ∧ r = 0 := by
  simp only [configHashBase] at h
  push_cast at h
  have hm₁ : ∃ m : Int, 25390027398630 * t - 3643271950826 * p - 65304504586 * r = 2 ^ 64 * m :=
    ⟨-8516971234276074106 * q + 264587353875000155610299049319336443051993576159 * t +
      2903143336946198590555283744850928183477 * p + 349516168168371838086596 * r, by
      linear_combination -8516971234276074106 * h⟩
  have hm₂ : ∃ m : Int, -32968902663223 * t - 3440868578415 * p - 323582473247 * r = 2 ^ 64 * m :=
    ⟨-1135143189393701831 * q + 35264241769678397586410327537323078221929485001 * t +
      386931374560206774981146798592453270648 * p + 46583566735861366659925 * r, by
      linear_combination -1135143189393701831 * h⟩
  have hm₃ : ∃ m : Int, 1537313748914 * t + 6274524411970 * p - 1319444516126 * r = 2 ^ 64 * m :=
    ⟨-419166729805982062 * q + 13021790589765771652407528693288419560249563062 * t +
      142879559556149960164440852098684199421 * p + 17201601977455403680123 * r, by
      linear_combination -419166729805982062 * h⟩
  obtain ⟨hb₁, hb₂, hb₃⟩ := multiples_small hsmall
  have h₁ := eq_zero_of_multiple hb₁ hm₁
  have h₂ := eq_zero_of_multiple hb₂ hm₂
  have h₃ := eq_zero_of_multiple hb₃ hm₃
  -- the determinant of the three equations is `2^64`
  have ht : 2 ^ 64 * t = 0 := by linear_combination 356180 * h₁ - 282806 * h₂ + 51727 * h₃
  have hp : 2 ^ 64 * p = 0 := by linear_combination -2385141 * h₁ - 1810636 * h₂ + 562093 * h₃
  have hr : 2 ^ 64 * r = 0 := by
    linear_combination -10927375 * h₁ - 8939854 * h₂ - 11247428 * h₃
  exact ⟨by simpa using ht, by simpa using hp, by simpa using hr⟩

end Congruence

/-! ## Injectivity -/

theorem severityConfigHash_injective {a b : SLAConfig} (ha : InBounds a) (hb : InBounds b)
    (h : severityConfigHash a = severityConfigHash b) : a = b := by
  obtain ⟨q, d₂, d₃, d₄, h₂, h₃, h₄, hcongruence⟩ := severityConfigHash_congruence ha hb h
  have hsmall : FieldsDiffer ((a.threshold_minutes : Int) - b.threshold_minutes)
      (a.penalty_per_minute - b.penalty_per_minute) (a.reward_base - b.reward_base) := by
    obtain ⟨hat, hap, har⟩ := ha
    obtain ⟨hbt, hbp, hbr⟩ := hb
    exact ⟨by omega, by omega, by omega⟩
  obtain ⟨rfl, rfl, rfl⟩ := carries_eq_zero hsmall h₂ h₃ h₄ hcongruence
  simp only [Int.mul_zero, Int.sub_zero] at hcongruence
  obtain ⟨ht, hp, hr⟩ := fields_eq_zero hsmall hcongruence
  cases a
  cases b
  simp only [SLAConfig.mk.injEq]
  simp only at ht hp hr
  omega

/-- The configuration hash never confuses two configurations that `validate_general_bounds`
accepts, and so never two configurations that severities hold after runs of the contract. -/
theorem config_hash_separates :
    (∀ a b : SLAConfig,
      validateGeneralBounds a.threshold_minutes a.penalty_per_minute a.reward_base = .ok () →
      validateGeneralBounds b.threshold_minutes b.penalty_per_minute b.reward_base = .ok () →
      severityConfigHash a = severityConfigHash b → a = b) ∧
    (∀ (txs txs' : List ContractTx) (severity severity' : Symbol) (hash : Nat),
      computeSeverityConfigHash severity (after txs) = .ok hash →
      computeSeverityConfigHash severity' (after txs') = .ok hash →
      ∃ cfg, loadConfig severity (after txs) = .ok cfg ∧
        loadConfig severity' (after txs') = .ok cfg) := by
  refine ⟨fun a b ha hb h => severityConfigHash_injective (validateGeneralBounds_eq_ok.mp ha)
    (validateGeneralBounds_eq_ok.mp hb) h, fun txs txs' severity severity' hash h h' => ?_⟩
  simp only [computeSeverityConfigHash, bind_eq_ok, pure_eq_ok] at h h'
  obtain ⟨cfg, hload, rfl⟩ := h
  obtain ⟨cfg', hload', hsame⟩ := h'
  obtain rfl := severityConfigHash_injective (inBounds_after hload') (inBounds_after hload) hsame
  exact ⟨cfg', hload, hload'⟩

end ApexChainx
