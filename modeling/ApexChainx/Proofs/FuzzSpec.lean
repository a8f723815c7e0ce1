import ApexChainx.Contract.FuzzSpec
import ApexChainx.Proofs.Bench
import ApexChainx.Proofs.Pagination
import ApexChainx.Proofs.Specification

/-!
# The fuzz assertions hold

No input makes an assertion of `fuzz_spec.rs` fail: the implementation agrees with its copy and
with the specification, what the validation accepts can be computed for every 32-bit repair time,
and the pagination oracle is consistent.
-/

namespace ApexChainx.Fuzz

open Host Misc

variable {s : Storage}

theorem attempt_yields {α : Type} (computation : Except SLAError α) :
    Driver.Yields (attempt (computation.mapError .err)) s computation := by
  cases computation <;> rfl

/-- The two validations agree, so the assertion tells whether they accept. -/
theorem assertValidateConfigMatchesSpec_yields (severity : Symbol) (threshold : Nat)
    (penalty reward : Int) :
    ∃ accepted, Driver.Yields (assertValidateConfigMatchesSpec severity threshold penalty reward) s
        accepted ∧
      (accepted = true → validateConfig severity threshold penalty reward = .ok ()) := by
  unfold assertValidateConfigMatchesSpec
  rw [← validateConfig_eq]
  cases h : validateConfig severity threshold penalty reward with
  | ok u => exact ⟨true, rfl, fun _ => rfl⟩
  | error e => exact ⟨false, .bind (.assert rfl) .pure, by simp⟩

theorem assertResultsEqual_yields (result : Except SLAError SLAResult) :
    Driver.Checks (assertResultsEqual result result) s := by
  cases result with
  | ok a => exact .assert ⟨rfl, rfl, rfl, rfl, rfl, rfl, rfl, rfl, rfl⟩
  | error e => exact .assert rfl

/-- A decision is a violation exactly above the threshold. -/
theorem computeResult_violated_iff {outage_id : Symbol} {mttr hash now : Nat} {cfg : SLAConfig}
    {result : SLAResult} (h : computeResult outage_id mttr cfg hash now = .ok result) :
    result.status = .viol ↔ mttr > cfg.threshold_minutes := by
  unfold computeResult at h
  split at h
  · next hviolated =>
    simp only [computePenalty, bind_eq_ok, pure_eq_ok] at h
    obtain ⟨_, -, _, -, _, -, rfl⟩ := h
    exact iff_of_true rfl hviolated
  · next hmet =>
    simp only [computeReward, bind_eq_ok, pure_eq_ok] at h
    obtain ⟨_, -, _, -, rfl⟩ := h
    exact iff_of_false (by simp) hmet

/-- The sign discipline, and the side of the threshold that a status tells. -/
theorem assertSignDiscipline_yields {outage_id : Symbol} {mttr hash now : Nat} {cfg : SLAConfig}
    {result : SLAResult} (h : computeResult outage_id mttr cfg hash now = .ok result) :
    Driver.Checks (assertSignDiscipline result mttr cfg) s := by
  have hside := computeResult_violated_iff h
  rcases computeResult_signDisciplined h with
    ⟨hstatus, hpayment, hamount⟩ | ⟨hstatus, hpayment, hpoor, hamount⟩
  · have hmet : ¬ mttr > cfg.threshold_minutes := by
      rw [← hside, hstatus]
      decide
    refine .ite (fun _ => ?_) fun hnot => absurd hstatus hnot
    exact .bind (.assert hamount) (.bind (.assert hpayment)
      (.bind (.assert (computeResult_rating h hstatus)) (.assert (Nat.not_lt.mp hmet))))
  · have hviolated : result.status ≠ .met := by
      rw [hstatus]
      decide
    refine .ite (fun hmet => absurd hmet hviolated) fun _ => ?_
    exact .bind (.assert hstatus) (.bind (.assert hamount) (.bind (.assert hpayment)
      (.bind (.assert hpoor) (.assert (hside.mp hstatus)))))

/-- For every 32-bit repair time and every configuration, valid or not. -/
theorem assertComputeResultMatchesSpec_yields (outage_id : Symbol) {mttr : Nat} (cfg : SLAConfig)
    (hash now : Nat) (hmttr : mttr ≤ unsignedMax 32) :
    Driver.Checks (assertComputeResultMatchesSpec outage_id mttr cfg hash now) s := by
  have hlib := lib_computeResult outage_id hash now cfg hmttr
  have hspec : Spec.expectedComputeResult mttr cfg =
      (SLAResult.outcome <$> computeResult outage_id mttr cfg hash now).mapError .err := by
    rw [expectedComputeResult_eq outage_id hash now cfg mttr, hlib]
    cases computeResult outage_id mttr cfg hash now <;> rfl
  unfold assertComputeResultMatchesSpec
  rw [calculation_computeResult, hlib, hspec]
  refine .bind (attempt_yields _) (.bind (attempt_yields _) ?_)
  refine .bind (assertResultsEqual_yields _) (.bind (attempt_yields _) ?_)
  refine .bind (assertResultsEqual_yields _) (.bind (attempt_yields _) ?_)
  cases hresult : computeResult outage_id mttr cfg hash now with
  | error e => exact .assert rfl
  | ok result =>
    obtain ⟨houtage, hinputs, hthreshold, hhash, hnow⟩ := computeResult_inputs hresult
    refine .bind (.assert rfl) (.bind (.assert rfl) (.bind (.assert rfl) (.bind (.assert rfl) ?_)))
    refine .bind (assertSignDiscipline_yields hresult) (.bind (.assert houtage.symm) ?_)
    exact .bind (.assert hinputs) (.bind (.assert hthreshold) (.bind (.assert hhash)
      (.assert hnow)))

/-- A configuration within the bounds settles every 32-bit repair time, and never for nothing. -/
theorem assertValidatedConfigComputes_yields (outage_id : Symbol) {mttr : Nat} {cfg : SLAConfig}
    (bounds : InBounds cfg) (hmttr : mttr ≤ unsignedMax 32) :
    Driver.Checks (assertValidatedConfigComputes outage_id mttr cfg) s := by
  obtain ⟨result, hresult, -⟩ := computeResult_settlement outage_id 0 0 bounds hmttr
  have hnonzero : result.amount ≠ 0 := by
    rcases computeResult_signDisciplined hresult with ⟨-, -, hamount⟩ | ⟨-, -, -, hamount⟩
    · exact ne_of_gt hamount
    · exact ne_of_lt hamount
  unfold assertValidatedConfigComputes
  rw [lib_computeResult outage_id 0 0 cfg hmttr, hresult]
  exact .bind (attempt_yields (.ok result)) (.assert hnonzero)

theorem assertWhen_yields {c d : Prop} [Decidable c] [Decidable d] (h : c → d) :
    Driver.Checks (assertWhen c d) s :=
  .ite (fun hc => .assert (h hc)) fun _ => .pure

/-- The oracle is consistent for every offset, every limit and every 32-bit length. -/
theorem assertPaginationOracleSelfConsistent_yields (offset limit : Nat) {len : Nat}
    (hlen : len ≤ unsignedMax 32) :
    Driver.Checks (assertPaginationOracleSelfConsistent offset limit len) s := by
  have hstop : Spec.expectedPageEnd offset limit len =
      min (offset + min limit maxPageSize) len := Spec.expectedPageEnd_eq hlen
  have hpage : Spec.expectedPageLen offset limit len =
      min (offset + min limit maxPageSize) len - offset := congrArg (· - offset) hstop
  have hmore : Spec.expectedHasMore offset limit len =
      decide (limit > 0 ∧ Spec.expectedPageEnd offset limit len < len) := by
    rw [Spec.expectedHasMore_eq hlen, hstop, ← Bool.decide_and]
    refine decide_eq_decide.mpr ?_
    simp only [maxPageSize]
    omega
  unfold assertPaginationOracleSelfConsistent
  dsimp only
  rw [hpage, hmore, hstop]
  refine .bind (.assert (by omega)) (.bind (.assert (by omega)) (.bind (.assert ?_) ?_))
  · simp only [maxPageSize]
    omega
  · refine .bind (assertWhen_yields (by omega)) (.bind (.assert rfl) (assertWhen_yields ?_))
    simp only [maxPageSize]
    omega

/-! ## The targets -/

section Targets

variable (mttr severity_idx threshold : UInt32) (penalty reward : Int)

theorem toNat_le (x : UInt32) : x.toNat ≤ unsignedMax 32 := Nat.le_pred_of_lt x.toNat_lt

/-- What an accepting validation is followed by may rely on the bounds. -/
theorem assertValidateConfigMatchesSpec_bind {severity : Symbol} {threshold : Nat}
    {penalty reward : Int} {m : Target Unit}
    (h : InBounds ⟨threshold, penalty, reward⟩ → Driver.Checks m s) :
    Driver.Checks (do
      let accepted ← assertValidateConfigMatchesSpec severity threshold penalty reward
      if accepted then m else pure ()) s := by
  obtain ⟨accepted, hyields, hvalid⟩ :=
    assertValidateConfigMatchesSpec_yields severity threshold penalty reward
  refine .bind hyields (.ite (fun haccepted => h ?_) fun _ => .pure)
  have hvalidated : validateConfig severity threshold penalty reward = .ok () := hvalid haccepted
  have hbounds : _ ∧ InBounds ⟨threshold, penalty, reward⟩ := inBounds_of_validateConfig hvalidated
  exact hbounds.2

theorem calculatorTarget_yields :
    Driver.Checks (calculatorTarget mttr severity_idx threshold penalty reward) s := by
  refine .bind (assertComputeResultMatchesSpec_yields _ _ _ _ (toNat_le mttr)) ?_
  refine assertValidateConfigMatchesSpec_bind fun bounds => ?_
  exact .bind (assertValidatedConfigComputes_yields _ bounds (toNat_le mttr))
    (assertValidatedConfigComputes_yields _ bounds (Nat.le_refl _))

theorem computeResultTarget_yields :
    Driver.Checks (computeResultTarget mttr severity_idx threshold penalty reward) s := by
  refine .bind (calculatorTarget_yields mttr severity_idx threshold penalty reward) ?_
  refine assertValidateConfigMatchesSpec_bind fun bounds => .forM fun mttr hmttr => ?_
  refine assertValidatedConfigComputes_yields _ bounds ?_
  revert mttr
  decide

theorem validateConfigTarget_yields :
    Driver.Checks (validateConfigTarget severity_idx threshold penalty reward) s := by
  refine assertValidateConfigMatchesSpec_bind fun bounds => .forM fun mttr hmttr => ?_
  refine assertValidatedConfigComputes_yields _ bounds ?_
  have hthreshold := toNat_le threshold
  simp only [List.mem_cons, List.not_mem_nil, or_false] at hmttr
  rcases hmttr with rfl | rfl | rfl | rfl
  · exact Nat.zero_le _
  · exact hthreshold
  · exact Nat.min_le_right ..
  · exact Nat.le_refl _

end Targets

/-- No input makes a pure fuzz target panic, and the pagination oracle passes its assertions for
every 32-bit offset, limit and length. -/
theorem pureTargets_pass (mttr severity_idx threshold offset limit len : UInt32)
    (penalty reward : Int) (s : Storage) :
    Driver.Checks (computeResultTarget mttr severity_idx threshold penalty reward) s ∧
      Driver.Checks (calculatorTarget mttr severity_idx threshold penalty reward) s ∧
      Driver.Checks (validateConfigTarget severity_idx threshold penalty reward) s ∧
      Driver.Checks
        (assertPaginationOracleSelfConsistent offset.toNat limit.toNat len.toNat) s :=
  ⟨computeResultTarget_yields .., calculatorTarget_yields .., validateConfigTarget_yields ..,
    assertPaginationOracleSelfConsistent_yields _ _ (toNat_le len)⟩

end ApexChainx.Fuzz
