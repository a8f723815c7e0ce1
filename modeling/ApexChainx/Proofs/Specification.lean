import ApexChainx.Contract.Spec
import ApexChainx.Proofs.Calculation

/-!
# The implementation meets its executable specification

The outcome of a decision and the verdict of a validation, against the restatement of the rules
in `spec.rs`, for every value the machine types admit. The machine arithmetic never traps.
-/

namespace ApexChainx

open Host Misc

/-- The outcome-bearing fields of a result. -/
def SLAResult.outcome (result : SLAResult) : Spec.ExpectedOutcome :=
  ⟨result.status, result.payment_type, result.rating, result.amount⟩

section Outcome

variable (outage_id : Symbol) {mttr : Nat} (hash now : Nat) (cfg : SLAConfig)

theorem panickingSub_of_le {a b : Nat} (h : b ≤ a) : panickingSub a b = some (a - b) := if_pos h

/-- A percentage of a 32-bit value fits 64 bits. -/
theorem panickingMul_percent (h : mttr ≤ unsignedMax 32) :
    panickingMul 64 mttr 100 = some (mttr * 100) := by
  refine if_pos ?_
  simp only [unsignedMax] at h ⊢
  omega

/-- Taking percents of a checked product does not trap. -/
theorem percent_bind {β : Type} {x : Int} {e : Fault SLAError} {g : Int → Trapping β} :
    (okOr (checked 128 x) e >>= fun val => orTrap (panickingDivEuclid 128 val 100) >>= g) =
      okOr (checked 128 x) e >>= fun val => g (val / 100) := by
  cases hval : checked 128 x with
  | none => rfl
  | some val =>
    have hfits : signedMin 128 ≤ val ∧ val ≤ signedMax 128 :=
      checked_eq_some hval ▸ fits_of_checked hval
    have hdiv : panickingDivEuclid 128 val 100 = some (val / 100) :=
      panickingDivEuclid_pos (by decide) hfits
    simp only [okOr_some, ok_bind, orTrap, hdiv]

/-- On machine inputs the arithmetic of `compute_result` never traps. -/
theorem lib_computeResult (h : mttr ≤ unsignedMax 32) :
    Lib.computeResult outage_id mttr cfg hash now =
      (computeResult outage_id mttr cfg hash now).mapError .err := by
  by_cases hviolated : mttr > cfg.threshold_minutes
  · simp only [Lib.computeResult, computeResult, computePenalty, if_pos hviolated,
      panickingSub_of_le hviolated.le, orTrap, Option.map_some, okOr_some, ok_bind, mapError_bind,
      mapError_okOr, mapError_refuseIf, mapError_pure]
    rfl
  · simp only [Lib.computeResult, computeResult, computeReward, if_neg hviolated,
      panickingMul_percent h, percent_bind, mapError_bind, mapError_okOr, mapError_refuseIf,
      mapError_pure]
    simp only [orTrap, okOr_some, ok_bind, rewardTier]
    split
    · rfl
    · split <;> rfl

/-- The twin in `calculation.rs` decides as `lib.rs` does. -/
theorem calculation_computeResult :
    Calculation.computeResult outage_id mttr cfg hash now =
      Lib.computeResult outage_id mttr cfg hash now := rfl

/-- The specification decides as the implementation does. -/
theorem expectedComputeResult_eq (mttr : Nat) :
    Spec.expectedComputeResult mttr cfg =
      SLAResult.outcome <$> Lib.computeResult outage_id mttr cfg hash now := by
  by_cases hviolated : mttr > cfg.threshold_minutes
  · simp only [Spec.expectedComputeResult, Lib.computeResult, if_pos hviolated, map_bind, map_pure]
    rfl
  · simp only [Spec.expectedComputeResult, Lib.computeResult, if_neg hviolated, map_bind, map_pure]
    rfl

end Outcome

section Validation

variable {severity : Symbol} {threshold : Nat} {penalty reward : Int}

theorem refuseIf_congr {c c' : Prop} [Decidable c] [Decidable c'] {e : SLAError} (h : c ↔ c') :
    refuseIf c e = refuseIf c' e := by
  simp only [refuseIf, h]

theorem spec_isCanonicalSeverity :
    Spec.isCanonicalSeverity severity = isCanonicalSeverity severity := by
  rw [Bool.eq_iff_iff, isCanonicalSeverity_iff]
  simp only [Spec.isCanonicalSeverity, List.any_eq_true, beq_iff_eq, exists_eq_right]
  rfl

/-- The general bounds are the ranges of the specification, checked in the same order. -/
theorem validateGeneralBounds_eq :
    validateGeneralBounds threshold penalty reward = (do
      refuseIf (¬ (Spec.thresholdMin ≤ threshold ∧ threshold ≤ Spec.thresholdMax))
        .InvalidThreshold
      refuseIf (¬ (Spec.penaltyMin ≤ penalty ∧ penalty ≤ Spec.penaltyMax)) .InvalidPenalty
      refuseIf (¬ (Spec.rewardMin ≤ reward ∧ reward ≤ Spec.rewardMax)) .InvalidReward) := by
  have hthreshold : (threshold = 0 ∨ threshold > 1440) ↔
      ¬ (Spec.thresholdMin ≤ threshold ∧ threshold ≤ Spec.thresholdMax) := by
    simp only [Spec.thresholdMin, Spec.thresholdMax]
    omega
  have hpenalty : (penalty ≤ 0 ∨ penalty > 10000) ↔
      ¬ (Spec.penaltyMin ≤ penalty ∧ penalty ≤ Spec.penaltyMax) := by
    simp only [Spec.penaltyMin, Spec.penaltyMax]
    omega
  have hreward : (reward ≤ 0 ∨ reward > 100000) ↔
      ¬ (Spec.rewardMin ≤ reward ∧ reward ≤ Spec.rewardMax) := by
    simp only [Spec.rewardMin, Spec.rewardMax]
    omega
  unfold validateGeneralBounds
  rw [refuseIf_congr hthreshold, refuseIf_congr hpenalty, refuseIf_congr hreward]

/-- On the canonical severities the specific limits agree. -/
theorem validateSeverityLimits_eq (h : isCanonicalSeverity severity = true) :
    validateSeverityLimits severity threshold penalty =
      Spec.expectedSeverityBounds severity threshold penalty := by
  have hmem := isCanonicalSeverity_iff.mp h
  simp only [canonicalSeverities, List.mem_cons, List.not_mem_nil, or_false] at hmem
  rcases hmem with rfl | rfl | rfl | rfl <;> rfl

/-- `validate_config` reports the first error the specification reports. -/
theorem validateConfig_eq :
    validateConfig severity threshold penalty reward =
      Spec.expectedValidateConfig severity threshold penalty reward := by
  unfold validateConfig Spec.expectedValidateConfig
  rw [spec_isCanonicalSeverity, validateGeneralBounds_eq]
  by_cases hcanonical : isCanonicalSeverity severity = true
  · rw [validateSeverityLimits_eq hcanonical]
    simp only [bind_assoc, hcanonical]
    rfl
  · simp [hcanonical, refuseIf]

end Validation

theorem mapError_ne_trap {α : Type} {x : Except SLAError α} :
    x.mapError Fault.err ≠ .error .trap := by
  cases x <;> simp

theorem map_ne_trap {α β : Type} {f : α → β} {x : Trapping α} (h : x ≠ .error .trap) :
    f <$> x ≠ .error .trap := by
  cases x with
  | error e =>
    intro hmapped
    cases hmapped
    exact h rfl
  | ok a =>
    intro hmapped
    cases hmapped

/-- Implementation, twin and specification decide alike on machine inputs, without a trap, and
with a result for every configuration within the bounds; and the two validations agree. -/
theorem implementation_meets_spec (outage_id : Symbol) (mttr hash now : Nat) (cfg : SLAConfig)
    (h : mttr ≤ unsignedMax 32) :
    SLAResult.outcome <$> Lib.computeResult outage_id mttr cfg hash now =
        Spec.expectedComputeResult mttr cfg ∧
      SLAResult.outcome <$> Calculation.computeResult outage_id mttr cfg hash now =
        Spec.expectedComputeResult mttr cfg ∧
      Lib.computeResult outage_id mttr cfg hash now ≠ .error .trap ∧
      Calculation.computeResult outage_id mttr cfg hash now ≠ .error .trap ∧
      Spec.expectedComputeResult mttr cfg ≠ .error .trap ∧
      (InBounds cfg → mttr ≤ Spec.maxMttrMinutes → ∃ result,
        Lib.computeResult outage_id mttr cfg hash now = .ok result ∧
          Calculation.computeResult outage_id mttr cfg hash now = .ok result ∧
          Spec.expectedComputeResult mttr cfg = .ok result.outcome) ∧
      ∀ (severity : Symbol) (threshold : Nat) (penalty reward : Int),
        validateConfig severity threshold penalty reward =
          Spec.expectedValidateConfig severity threshold penalty reward := by
  have hspec := expectedComputeResult_eq outage_id hash now cfg mttr
  have hlib := lib_computeResult outage_id hash now cfg h
  have htrap : Lib.computeResult outage_id mttr cfg hash now ≠ .error .trap :=
    hlib ▸ mapError_ne_trap
  refine ⟨hspec.symm, hspec.symm, htrap, htrap, ?_, ?_, fun _ _ _ _ => validateConfig_eq⟩
  · rw [hspec]
    exact map_ne_trap htrap
  · intro hbounds hmttr
    obtain ⟨result, hresult⟩ := computeResult_ok hbounds hmttr
    have hok : Lib.computeResult outage_id mttr cfg hash now = .ok result := by
      rw [hlib, hresult, mapError_ok]
    refine ⟨result, hok, hok, ?_⟩
    rw [hspec, hok]
    rfl

/-- A critical outage repaired five minutes late. -/
theorem implementation_meets_spec_late :
    SLAResult.outcome <$> Calculation.computeResult (symbolShort "OUT1") 20 ⟨15, 100, 750⟩ 1 2 =
      .ok ⟨.viol, .pen, .poor, -500⟩ :=
  (implementation_meets_spec (symbolShort "OUT1") 20 1 2 ⟨15, 100, 750⟩ (by decide)).2.1.trans
    (by rfl)

end ApexChainx
