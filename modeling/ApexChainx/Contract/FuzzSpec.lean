import ApexChainx.Contract.FuzzTargets
import ApexChainx.Contract.Spec

/-!
# Fuzz assertions

The assertion bodies of `fuzz_spec.rs` and the fuzz targets that run them: `compute_result`,
`calculator` and `validate_config`. They call the pure functions of the contract and of the
specification, so they do not read the storage; a trap of the machine arithmetic is a panic.
-/

namespace ApexChainx.Fuzz

open Host Misc

/-- The `Result` of a computation, unless it traps. -/
def attempt {α : Type} (computation : Trapping α) : Target (Except SLAError α) := fun s =>
  match computation with
  | .ok a => some (.ok a, s)
  | .error (.err e) => some (.error e, s)
  | .error .trap => none

/-- `panic!`. -/
def panic {α : Type} : Target α := fun _ => none

/-- `assert_validate_config_matches_spec`. -/
def assertValidateConfigMatchesSpec (severity : Symbol) (threshold_minutes : Nat)
    (penalty_per_minute reward_base : Int) : Target Bool :=
  let actual := validateConfig severity threshold_minutes penalty_per_minute reward_base
  let expected :=
    Spec.expectedValidateConfig severity threshold_minutes penalty_per_minute reward_base
  match actual, expected with
  | .ok _, .ok _ => pure true
  | .error a, .error e => do
    Driver.assert (a = e)
    pure false
  | .ok _, .error _ => panic
  | .error _, .ok _ => panic

/-- `assert_results_equal`. -/
def assertResultsEqual (left right : Except SLAError SLAResult) : Target Unit :=
  match left, right with
  | .ok a, .ok b =>
    Driver.assert (a.status = b.status ∧ a.payment_type = b.payment_type ∧ a.rating = b.rating ∧
      a.amount = b.amount ∧ a.outage_id = b.outage_id ∧ a.mttr_minutes = b.mttr_minutes ∧
      a.threshold_minutes = b.threshold_minutes ∧
      a.config_version_hash = b.config_version_hash ∧ a.recorded_at = b.recorded_at)
  | .error a, .error b => Driver.assert (a = b)
  | .ok _, .error _ => panic
  | .error _, .ok _ => panic

/-- The sign discipline that `assert_compute_result_matches_spec` asserts of a result. -/
def assertSignDiscipline (result : SLAResult) (mttr_minutes : Nat) (cfg : SLAConfig) :
    Target Unit :=
  if result.status = .met then do
    Driver.assert (result.amount > 0)
    Driver.assert (result.payment_type = .rew)
    Driver.assert (result.rating = .top ∨ result.rating = .excel ∨ result.rating = .good)
    Driver.assert (mttr_minutes ≤ cfg.threshold_minutes)
  else do
    Driver.assert (result.status = .viol)
    Driver.assert (result.amount < 0)
    Driver.assert (result.payment_type = .pen)
    Driver.assert (result.rating = .poor)
    Driver.assert (mttr_minutes > cfg.threshold_minutes)

/-- The comparison of a result with the expected outcome. -/
def assertOutcome (outage_id : Symbol) (mttr_minutes : Nat) (cfg : SLAConfig)
    (config_version_hash recorded_at : Nat) (result : SLAResult) (want : Spec.ExpectedOutcome) :
    Target Unit := do
  Driver.assert (result.status = want.status)
  Driver.assert (result.payment_type = want.payment_type)
  Driver.assert (result.rating = want.rating)
  Driver.assert (result.amount = want.amount)
  assertSignDiscipline result mttr_minutes cfg
  Driver.assert (result.outage_id = outage_id)
  Driver.assert (result.mttr_minutes = mttr_minutes)
  Driver.assert (result.threshold_minutes = cfg.threshold_minutes)
  Driver.assert (result.config_version_hash = config_version_hash)
  Driver.assert (result.recorded_at = recorded_at)

/-- `assert_compute_result_matches_spec`. -/
def assertComputeResultMatchesSpec (outage_id : Symbol) (mttr_minutes : Nat) (cfg : SLAConfig)
    (config_version_hash recorded_at : Nat) : Target Unit := do
  let actual ← attempt
    (Lib.computeResult outage_id mttr_minutes cfg config_version_hash recorded_at)
  let mirrored ← attempt
    (Calculation.computeResult outage_id mttr_minutes cfg config_version_hash recorded_at)
  assertResultsEqual actual mirrored
  let repeated ← attempt
    (Lib.computeResult outage_id mttr_minutes cfg config_version_hash recorded_at)
  assertResultsEqual actual repeated
  let expected ← attempt (Spec.expectedComputeResult mttr_minutes cfg)
  match actual, expected with
  | .ok result, .ok want =>
    assertOutcome outage_id mttr_minutes cfg config_version_hash recorded_at result want
  | .error actual_err, .error want_err => Driver.assert (actual_err = want_err)
  | .ok _, .error _ => panic
  | .error _, .ok _ => panic

/-- `assert_validated_config_computes`. -/
def assertValidatedConfigComputes (outage_id : Symbol) (mttr_minutes : Nat) (cfg : SLAConfig) :
    Target Unit := do
  let result ← attempt (Lib.computeResult outage_id mttr_minutes cfg 0 0)
  match result with
  | .ok res => Driver.assert (res.amount ≠ 0)
  | .error _ => panic

/-- `if c { assert!(d) }`. -/
def assertWhen (c d : Prop) [Decidable c] [Decidable d] : Target Unit :=
  if c then Driver.assert d else pure ()

/-- `assert_pagination_oracle_self_consistent`. -/
def assertPaginationOracleSelfConsistent (offset limit len : Nat) : Target Unit := do
  let stop := Spec.expectedPageEnd offset limit len
  let page_len := Spec.expectedPageLen offset limit len
  Driver.assert (stop ≤ len)
  Driver.assert (page_len ≤ maxPageSize)
  Driver.assert (page_len ≤ limit ∨ limit > maxPageSize)
  assertWhen (offset ≥ len ∨ limit = 0) (page_len = 0)
  Driver.assert (Spec.expectedHasMore offset limit len = decide (limit > 0 ∧ stop < len))
  assertWhen (limit > 0 ∧ offset < len) (page_len > 0)

/-- The `CANONICAL_SEVERITIES` that an index selects. -/
def canonicalOf (severity_idx : Nat) : Symbol :=
  Spec.canonicalSeverities.get ⟨severity_idx % 4, Nat.mod_lt _ (by decide)⟩

theorem outage_wellFormed :
    "outage".toList.length ≤ 32 ∧ "outage".toList.all isSymbolChar = true := by decide

/-- `symbol_short!("outage")`. -/
def outageSymbol : Symbol := symbolShort "outage" outage_wellFormed

/-- The target `calculator`, which is also what `compute_result` does first. -/
def calculatorTarget (mttr severity_idx threshold_minutes : UInt32)
    (penalty_per_minute reward_base : Int) : Target Unit := do
  let severity := canonicalOf severity_idx.toNat
  let cfg : SLAConfig := ⟨threshold_minutes.toNat, penalty_per_minute, reward_base⟩
  assertComputeResultMatchesSpec outageSymbol mttr.toNat cfg severity_idx.toNat mttr.toNat
  let accepted ← assertValidateConfigMatchesSpec severity threshold_minutes.toNat
    penalty_per_minute reward_base
  if accepted then do
    assertValidatedConfigComputes outageSymbol mttr.toNat cfg
    assertValidatedConfigComputes outageSymbol (unsignedMax 32) cfg
  else pure ()

/-- The target `compute_result`. -/
def computeResultTarget (mttr severity_idx threshold_minutes : UInt32)
    (penalty_per_minute reward_base : Int) : Target Unit := do
  let severity := canonicalOf severity_idx.toNat
  let cfg : SLAConfig := ⟨threshold_minutes.toNat, penalty_per_minute, reward_base⟩
  calculatorTarget mttr severity_idx threshold_minutes penalty_per_minute reward_base
  let accepted ← assertValidateConfigMatchesSpec severity threshold_minutes.toNat
    penalty_per_minute reward_base
  if accepted then
    [Spec.maxMttrMinutes - 1, Spec.maxMttrMinutes,
      saturatingAdd 32 Spec.maxMttrMinutes 1].forM fun b =>
      assertValidatedConfigComputes outageSymbol b cfg
  else pure ()

theorem urgent_wellFormed :
    "urgent".toList.length ≤ 32 ∧ "urgent".toList.all isSymbolChar = true := by decide

/-- `NON_CANONICAL`. -/
def nonCanonical : List Symbol :=
  [symbolShort "urgent" urgent_wellFormed, customSeverity 0, symbolShort "CRITICAL",
    symbolShort "crit"]

/-- The target `validate_config`. -/
def validateConfigTarget (severity_idx threshold_minutes : UInt32)
    (penalty_per_minute reward_base : Int) : Target Unit := do
  let severity :=
    if severity_idx.toNat % 8 = 7 then
      nonCanonical.get ⟨severity_idx.toNat / 8 % 4, Nat.mod_lt _ (by decide)⟩
    else canonicalOf severity_idx.toNat
  let accepted ← assertValidateConfigMatchesSpec severity threshold_minutes.toNat
    penalty_per_minute reward_base
  if accepted then
    [0, threshold_minutes.toNat, saturatingAdd 32 threshold_minutes.toNat 1,
      unsignedMax 32].forM fun mttr =>
      assertValidatedConfigComputes (symbolShort "test") mttr
        ⟨threshold_minutes.toNat, penalty_per_minute, reward_base⟩
  else pure ()

end ApexChainx.Fuzz
