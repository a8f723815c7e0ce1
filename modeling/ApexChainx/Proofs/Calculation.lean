import ApexChainx.Proofs.Statistics

/-!
# What a submission is answered

The outcomes of `calculate_sla` and of `calculate_sla_view` for a submission that passes the
guards: the stored decision again, a duplicate refused, the recalculation limit, or a fresh
decision. On every state a run reaches a fresh decision can be computed.
-/

namespace ApexChainx

open Host Misc

/-! ## The decision in closed form -/

/-- The penalty of a violation, as a positive amount. -/
def penaltyDue (mttr : Nat) (cfg : SLAConfig) : Int :=
  ((mttr - cfg.threshold_minutes : Nat) : Int) * cfg.penalty_per_minute

/-- The reward of a repair in time. -/
def rewardDue (mttr : Nat) (cfg : SLAConfig) : Int :=
  cfg.reward_base *
    ((rewardTier ((checkedDiv (mttr * 100) cfg.threshold_minutes).getD 0)).1 : Int) / 100

/-- The signed amount of a decision. -/
def settlement (mttr : Nat) (cfg : SLAConfig) : Int :=
  if mttr > cfg.threshold_minutes then -penaltyDue mttr cfg else rewardDue mttr cfg

section Closed

variable {mttr : Nat} {cfg : SLAConfig}

theorem penaltyDue_bounds (hcfg : InBounds cfg) (hmttr : mttr ≤ unsignedMax 32)
    (hviolated : mttr > cfg.threshold_minutes) :
    1 ≤ penaltyDue mttr cfg ∧ penaltyDue mttr cfg ≤ 2 ^ 64 := by
  obtain ⟨-, hp, -⟩ := hcfg
  have hover : (1 : Int) ≤ ((mttr - cfg.threshold_minutes : Nat) : Int) ∧
      ((mttr - cfg.threshold_minutes : Nat) : Int) ≤ 2 ^ 32 := by
    simp only [unsignedMax] at hmttr
    omega
  have hlow := Int.mul_le_mul hover.1 hp.1 (by decide) (by omega)
  have hhigh := Int.mul_le_mul hover.2 hp.2 (by omega) (by decide)
  exact ⟨hlow, hhigh.trans (by decide)⟩

theorem rewardTier_bounds (performance_ratio : Nat) :
    100 ≤ (rewardTier performance_ratio).1 ∧ (rewardTier performance_ratio).1 ≤ 200 := by
  unfold rewardTier
  split
  · decide
  · split <;> decide

/-- The product behind a reward, which is then taken in percent. -/
theorem rewardProduct_bounds (hcfg : InBounds cfg) (performance_ratio : Nat) :
    100 ≤ cfg.reward_base * ((rewardTier performance_ratio).1 : Int) ∧
      cfg.reward_base * ((rewardTier performance_ratio).1 : Int) ≤ 2 ^ 64 := by
  obtain ⟨-, -, hr⟩ := hcfg
  have htier := rewardTier_bounds performance_ratio
  have hlow := Int.mul_le_mul hr.1 (Int.ofNat_le.mpr htier.1) (by decide) (by omega)
  have hhigh := Int.mul_le_mul hr.2 (Int.ofNat_le.mpr htier.2) (by omega) (by decide)
  exact ⟨hlow, hhigh.trans (by decide)⟩

theorem rewardDue_pos (mttr : Nat) (hcfg : InBounds cfg) : 0 < rewardDue mttr cfg := by
  have hproduct := rewardProduct_bounds hcfg
    ((checkedDiv (mttr * 100) cfg.threshold_minutes).getD 0)
  unfold rewardDue
  omega

/-- Within the bounds every 32-bit repair time is decided, and settles `settlement`. -/
theorem computeResult_settlement (outage_id : Symbol) (hash now : Nat) (hcfg : InBounds cfg)
    (hmttr : mttr ≤ unsignedMax 32) :
    ∃ result, computeResult outage_id mttr cfg hash now = .ok result ∧
      result.amount = settlement mttr cfg ∧
      (result.status = .viol ↔ mttr > cfg.threshold_minutes) := by
  have hfits : ∀ x : Int, -2 ^ 64 ≤ x → x ≤ 2 ^ 64 → checked 128 x = some x := fun x hlow hhigh =>
    checked_of_fits (by simp only [signedMin, signedMax]; omega)
  unfold computeResult settlement
  by_cases hviolated : mttr > cfg.threshold_minutes
  · have hbounds := penaltyDue_bounds hcfg hmttr hviolated
    have hpenalty : checked 128 (((mttr - cfg.threshold_minutes : Nat) : Int) *
        cfg.penalty_per_minute) = some (penaltyDue mttr cfg) :=
      hfits (penaltyDue mttr cfg) (by omega) hbounds.2
    have hnegative : ¬ -penaltyDue mttr cfg ≥ 0 := by omega
    rw [if_pos hviolated, if_pos hviolated]
    simp only [computePenalty, hpenalty, okOr_some, ok_bind,
      hfits (-penaltyDue mttr cfg) (by omega) (by omega), refuseIf, if_neg hnegative]
    exact ⟨_, rfl, rfl, by simp [hviolated]⟩
  · have hproduct := rewardProduct_bounds hcfg
      ((checkedDiv (mttr * 100) cfg.threshold_minutes).getD 0)
    have hpositive : ¬ cfg.reward_base * ((rewardTier
        ((checkedDiv (mttr * 100) cfg.threshold_minutes).getD 0)).1 : Int) / 100 ≤ 0 :=
      not_le.mpr (rewardDue_pos mttr hcfg)
    rw [if_neg hviolated, if_neg hviolated]
    simp only [computeReward, hfits _ (by omega) hproduct.2, okOr_some, ok_bind, refuseIf,
      if_neg hpositive]
    exact ⟨_, rfl, rfl, by simp [hviolated]⟩

/-- A decision can be computed for every configuration within the bounds. -/
theorem computeResult_ok {outage_id : Symbol} {hash now : Nat} (hcfg : InBounds cfg)
    (hmttr : mttr ≤ maxMttr) :
    ∃ result, computeResult outage_id mttr cfg hash now = .ok result := by
  obtain ⟨result, hresult, -⟩ := computeResult_settlement outage_id hash now hcfg
    (hmttr.trans (by decide))
  exact ⟨result, hresult⟩

end Closed

/-- A submission, as a transaction. -/
abbrev submission (f : Frame Address) (caller : Address) (outage_id severity : Symbol)
    (mttr : Nat) : ContractTx :=
  ⟨.calculateSla caller outage_id severity mttr, f⟩

section Outcomes

variable {f : Frame Address} {s : Storage} {caller : Address} {outage_id severity : Symbol}
  {mttr : Nat} {cfg : SLAConfig} {prev result : SLAResult}

theorem reply_of_returns {env' : ContractEnv}
    (h : (calculateSla caller outage_id severity mttr).Returns f ⟨s, [], []⟩ result env') :
    invoke exec (submission f caller outage_id severity mttr) s =
      ⟨env'.storage, env'.events, .ok (.decision result)⟩ := by
  refine invoke_of_returns ?_
  exact (Prog.returns_bind ..).mpr ⟨result, env', h, rfl⟩

theorem reply_of_fails {x : Fault SLAError} {env' : ContractEnv}
    (h : (calculateSla caller outage_id severity mttr).Fails f ⟨s, [], []⟩ x env') :
    invoke exec (submission f caller outage_id severity mttr) s = ⟨s, [], .error x⟩ := by
  refine invoke_of_fails (Prog.Fails.bind h _)

/-- The severity-scoped hash is that of the configuration the severity loads. -/
theorem computeSeverityConfigHash_of_load (config : loadConfig severity s = .ok cfg) :
    computeSeverityConfigHash severity s = .ok (severityConfigHash cfg) := by
  simp only [computeSeverityConfigHash, config, ok_bind]
  rfl

/-- The inputs differ from those of the stored decision. -/
def Differs (prev : SLAResult) (mttr : Nat) (cfg : SLAConfig) : Prop :=
  prev.mttr_minutes ≠ mttr ∨ prev.threshold_minutes ≠ cfg.threshold_minutes

/-- What `calculate_sla` does once its guards have passed and the decision is computed, given the
latest entry of the outage and the number of its entries. -/
def settle (mttr : Nat) (cfg : SLAConfig) (hash : Nat) (existing : Option SLAResult)
    (stored_for_outage : Nat) (refusal : SLAResult → Event) (record : Contract SLAResult) :
    Contract SLAResult :=
  match existing with
  | some prev =>
    if prev.config_version_hash = hash then
      if prev.mttr_minutes ≠ mttr ∨ prev.threshold_minutes ≠ cfg.threshold_minutes then do
        Contract.publish (refusal prev)
        Prog.fail .DuplicateOutageInput
      else pure prev
    else if stored_for_outage ≥ maxRecalcsPerOutage then Prog.fail .OutageRecalcLimit
    else record
  | none => record

/-- The guards of a submission passed, and the decision is computed. -/
structure Submits (f : Frame Address) (s : Storage) (caller : Address)
    (outage_id severity : Symbol) (mttr : Nat) (cfg : SLAConfig) (result : SLAResult) : Prop where
  by_operator : ByOperator f s caller
  bound : mttr ≤ maxMttr
  config : loadConfig severity s = .ok cfg
  computed : computeResult outage_id mttr cfg (severityConfigHash cfg) f.timestamp = .ok result

theorem Submits.calculateSla_eq
    (h : Submits f s caller outage_id severity mttr cfg result) :
    calculateSla caller outage_id severity mttr f ⟨s, [], []⟩ =
      settle mttr cfg (severityConfigHash cfg) (History.latestForOutage s outage_id)
        (History.entryIndicesForOutage s outage_id).length
        (fun prev => .dupInput severity prev (some (mttr, cfg.threshold_minutes)))
        (recordDecision severity result (History.entryIndicesForOutage s outage_id))
        f ⟨s, [], []⟩ := by
  obtain ⟨⟨version, unpaused, signed, operator⟩, bound, config, computed⟩ := h
  have hoperator : (requireOperator caller).Returns f ⟨s, [], []⟩ () ⟨s, [], []⟩ := by
    simp [requireOperator, signed, operator]
  have hreads : ∀ {α : Type} {g : Storage → Except SLAError α} {a : α}, g s = .ok a →
      (Contract.reads g).Returns f ⟨s, [], []⟩ a ⟨s, [], []⟩ := fun hg => by simp [hg]
  have htime : (Prog.timestamp : Contract Nat).Returns f ⟨s, [], []⟩ f.timestamp ⟨s, [], []⟩ :=
    rfl
  unfold calculateSla
  rw [(hreads (a := ()) (checkVersion_eq_ok.mpr version)).bind_apply,
    (hreads (a := ()) (validateMttrBound_eq_ok.mpr bound)).bind_apply,
    (hreads (a := ()) (requireNotPaused_eq_ok.mpr unpaused)).bind_apply, hoperator.bind_apply,
    (hreads config).bind_apply, (hreads (computeSeverityConfigHash_of_load config)).bind_apply,
    htime.bind_apply, (hreads computed).bind_apply]
  rfl

/-- A submission that repeats the stored one returns it, with no write and no event. -/
theorem Submits.replays (h : Submits f s caller outage_id severity mttr cfg result)
    (latest : History.latestForOutage s outage_id = some prev)
    (generation : prev.config_version_hash = severityConfigHash cfg)
    (same : ¬ Differs prev mttr cfg) :
    (calculateSla caller outage_id severity mttr).Returns f ⟨s, [], []⟩ prev ⟨s, [], []⟩ := by
  simp only [Differs] at same
  rw [Prog.Returns, h.calculateSla_eq, latest, settle]
  simp only [generation, same, if_true, if_false]
  rfl

/-- A submission that differs from the stored one of its generation is refused, with no
write. -/
theorem Submits.duplicates (h : Submits f s caller outage_id severity mttr cfg result)
    (latest : History.latestForOutage s outage_id = some prev)
    (generation : prev.config_version_hash = severityConfigHash cfg)
    (differs : Differs prev mttr cfg) :
    (calculateSla caller outage_id severity mttr).Fails f ⟨s, [], []⟩ (.err .DuplicateOutageInput)
      ⟨s, [.dupInput severity prev (some (mttr, cfg.threshold_minutes))], []⟩ := by
  simp only [Differs] at differs
  rw [Prog.Fails, h.calculateSla_eq, latest, settle]
  simp only [generation, differs, if_true]
  rfl

/-- An outage that holds the maximum number of entries gets no decision of another
generation. -/
theorem Submits.limited (h : Submits f s caller outage_id severity mttr cfg result)
    (latest : History.latestForOutage s outage_id = some prev)
    (generation : prev.config_version_hash ≠ severityConfigHash cfg)
    (full : maxRecalcsPerOutage ≤ (History.entryIndicesForOutage s outage_id).length) :
    (calculateSla caller outage_id severity mttr).Fails f ⟨s, [], []⟩ (.err .OutageRecalcLimit)
      ⟨s, [], []⟩ := by
  rw [Prog.Fails, h.calculateSla_eq, latest, settle]
  simp only [generation, full, if_true, if_false]
  rfl

/-- Where the outage admits a fresh decision, the submission stores it. -/
theorem Submits.calculateSla_fresh (h : Submits f s caller outage_id severity mttr cfg result)
    (admits : Admits s outage_id (severityConfigHash cfg)) :
    calculateSla caller outage_id severity mttr f ⟨s, [], []⟩ =
      recordDecision severity result (History.entryIndicesForOutage s outage_id) f
        ⟨s, [], []⟩ := by
  rw [h.calculateSla_eq]
  cases hlatest : History.latestForOutage s outage_id with
  | none => rfl
  | some prev =>
    obtain ⟨generation, room⟩ := admits prev hlatest
    rw [settle, if_neg generation, if_neg (Nat.not_le.mpr room)]

/-- An outage that admits a fresh decision gets it. -/
theorem Submits.records (h : Submits f s caller outage_id severity mttr cfg result)
    (admits : Admits s outage_id (severityConfigHash cfg)) :
    ∃ env', (calculateSla caller outage_id severity mttr).Returns f ⟨s, [], []⟩ result env' ∧
      Recorded s result env'.storage ∧ env'.events = recordedEvents f s severity result := by
  obtain ⟨r, env', hr⟩ := recordDecision_total severity result
    (History.entryIndicesForOutage s outage_id) f ⟨s, [], []⟩
  obtain ⟨houtage, -⟩ := computeResult_inputs h.computed
  obtain ⟨rfl, change, events⟩ := recordDecision_recorded hr (by rw [houtage])
  refine ⟨env', ?_, change, events⟩
  rw [Prog.Returns, h.calculateSla_fresh admits]
  exact hr

/-- The same, as what the host commits. -/
theorem Submits.recorded (h : Submits f s caller outage_id severity mttr cfg result)
    (admits : Admits s outage_id (severityConfigHash cfg)) :
    ∃ s', invoke exec (submission f caller outage_id severity mttr) s =
        ⟨s', recordedEvents f s severity result, .ok (.decision result)⟩ ∧
      Records f s (.calculateSla caller outage_id severity mttr) (.decision result) s'
        (recordedEvents f s severity result) severity cfg result := by
  obtain ⟨env', hreturns, change, hevents⟩ := h.records admits
  obtain ⟨rfl, rfl, -⟩ := computeResult_inputs h.computed
  refine ⟨env'.storage, ?_, h.bound, h.config, h.computed, admits, change, rfl, rfl, caller,
    h.by_operator, rfl⟩
  rw [← hevents]
  exact reply_of_returns hreturns

/-! ## The read-only paths -/

/-- The decision the view gives when nothing of the generation is stored. -/
theorem calculateSlaView_eq (version : s .storageVersion = some storageVersion)
    (bound : mttr ≤ maxMttr) (config : loadConfig severity s = .ok cfg) {now : Nat}
    (computed : computeResult outage_id mttr cfg (severityConfigHash cfg) now = .ok result) :
    calculateSlaView outage_id severity mttr now s =
      match History.latestForOutage s outage_id with
      | some prev =>
        if prev.config_version_hash = severityConfigHash cfg then
          if prev.mttr_minutes ≠ mttr ∨ prev.threshold_minutes ≠ cfg.threshold_minutes then
            .error .DuplicateOutageInput
          else .ok prev
        else .ok result
      | none => .ok result := by
  have hversion : checkVersion s = .ok () := checkVersion_eq_ok.mpr version
  have hbound : validateMttrBound mttr = .ok () := validateMttrBound_eq_ok.mpr bound
  have hhash := computeSeverityConfigHash_of_load config
  cases hlatest : History.latestForOutage s outage_id <;>
    simp only [calculateSlaView, hversion, hbound, config, hhash, ok_bind, computed, hlatest]

theorem replayCalculateSla_eq (version : s .storageVersion = some storageVersion)
    (bound : mttr ≤ maxMttr) (config : loadConfig severity s = .ok cfg) {now : Nat}
    (computed : computeResult outage_id mttr cfg (severityConfigHash cfg) now = .ok result) :
    replayCalculateSla outage_id severity mttr now s =
      .ok (result, severityConfigHash cfg) := by
  have hversion : checkVersion s = .ok () := checkVersion_eq_ok.mpr version
  have hbound : validateMttrBound mttr = .ok () := validateMttrBound_eq_ok.mpr bound
  simp only [replayCalculateSla, hversion, hbound, config,
    computeSeverityConfigHash_of_load config, ok_bind, computed]
  rfl

end Outcomes

end ApexChainx
