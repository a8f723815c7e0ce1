import ApexChainx.Host.Atomic
import ApexChainx.Proofs.Migration
import ApexChainx.Proofs.Rejections

/-!
# Errors that have written nothing

The read-only entry points are functions of the storage. Every other one makes its checks before
its first write. The steps that may fail behind one are the registry recording of `set_config` and
`set_custom_severity`, the check behind the arms of `migrate`, and the expiry check of an accept.
The first two never fail, the first by the configuration invariant; the third clears the slot of a
lapsed proposal and then fails. So an error has written nothing, but for the two keys of that slot
(`errors_atomic`).
-/

namespace ApexChainx

open Host Misc

/-! ## Guards -/

theorem requireAdmin_silent (caller : Address) : (requireAdmin caller).Silent :=
  .bind (.requireAuth _) fun _ => .bind (.has _) fun _ => .bind (.failIf _ _) fun _ =>
    .bind (.getOr _ _) fun _ => .failIf _ _

theorem requireOperator_silent (caller : Address) : (requireOperator caller).Silent :=
  .bind (.requireAuth _) fun _ => .bind (.getOr _ _) fun _ => .failIf _ _

theorem requireNewAdminDistinct_silent (caller new_admin : Address) :
    (requireNewAdminDistinct caller new_admin).Silent :=
  .bind (.getOr _ _) fun _ => .failIf _ _

section Guarded

variable {caller : Address} {m : Contract Unit} (hm : m.Atomic)

include hm

/-- The guards of the governance calls. -/
theorem atomic_of_thawedAdmin :
    (do Contract.reads checkVersion; Contract.reads requireNotFrozen; requireAdmin caller;
        m).Atomic :=
  .bind (.reads _) fun _ => .bind (.reads _) fun _ => .bind (requireAdmin_silent _) fun _ => hm

/-- The guards of the other calls of the admin. -/
theorem atomic_of_admin : (do Contract.reads checkVersion; requireAdmin caller; m).Atomic :=
  .bind (.reads _) fun _ => .bind (requireAdmin_silent _) fun _ => hm

end Guarded

/-! ## Governance -/

theorem dropPendingOperator_total (caller : Address) : (dropPendingOperator caller).Total :=
  .bind (.has _) fun _ => .ite _
    (.bind (.remove _) fun _ => .bind (.remove _) fun _ => .publish _) (.pure _)

theorem setOperator_atomic (caller new_operator : Address) :
    (setOperator caller new_operator).Atomic :=
  atomic_of_thawedAdmin <| Prog.Total.atomic <|
    .bind (dropPendingOperator_total _) fun _ => .bind (.set _ _) fun _ => .publish _

theorem renounceAdmin_atomic (caller : Address) : (renounceAdmin caller).Atomic :=
  atomic_of_thawedAdmin <| Prog.Total.atomic <|
    .bind (.set _ _) fun _ => .bind (.remove _) fun _ => .bind (.remove _) fun _ =>
      .bind (.remove _) fun _ => .bind (dropPendingOperator_total _) fun _ => .publish _

theorem proposeAdmin_atomic (caller new_admin : Address) :
    (proposeAdmin caller new_admin).Atomic :=
  atomic_of_thawedAdmin <| .bind (requireNewAdminDistinct_silent _ _) fun _ =>
    Prog.Total.atomic <| .bind (.get _) fun _ => .bind (.set _ _) fun _ => .bind .timestamp fun _ =>
      .bind (.set _ _) fun _ => .bind (.whenSome _ fun _ => .publish _) fun _ => .publish _

theorem proposeOperator_atomic (caller new_operator : Address) :
    (proposeOperator caller new_operator).Atomic :=
  atomic_of_thawedAdmin <| Prog.Total.atomic <|
    .bind (.get _) fun _ => .bind (.set _ _) fun _ => .bind .timestamp fun _ =>
      .bind (.set _ _) fun _ => .bind (.whenSome _ fun _ => .publish _) fun _ => .publish _

theorem cancelAdminProposal_atomic (caller : Address) : (cancelAdminProposal caller).Atomic :=
  atomic_of_thawedAdmin <| .bind (.has _) fun _ => .bind (.failIf _ _) fun _ =>
    Prog.Total.atomic <| .bind (.remove _) fun _ => .bind (.remove _) fun _ => .publish _

theorem cancelOperatorProposal_atomic (caller : Address) :
    (cancelOperatorProposal caller).Atomic :=
  atomic_of_thawedAdmin <| .bind (.has _) fun _ => .bind (.failIf _ _) fun _ =>
    Prog.Total.atomic <| .bind (.remove _) fun _ => .bind (.remove _) fun _ => .publish _

/-- The expiry check of a proposal that has not lapsed writes nothing. -/
theorem requireProposalValid_silentAt {f : Frame Address} {env : ContractEnv} {role : Role}
    (h : ∀ since, env.storage (.pendingTs role) = some since →
      f.timestamp - since ≤ proposalExpiryWindow) (expiry : Address → Event) :
    (requireProposalValid role expiry).SilentAt f env := by
  unfold requireProposalValid
  cases hts : env.storage (.pendingTs role) with
  | none =>
    have hmissing : (Contract.getOr (.pendingTs role) .NoPendingTransfer).Fails f env
        (.err .NoPendingTransfer) env := by simp [Prog.Fails, Prog.getOr, hts]
    rw [Prog.SilentAt, show _ = _ from hmissing.bind _]
    exact .refl env
  | some since =>
    have hsince : (Contract.getOr (.pendingTs role) .NoPendingTransfer).Returns f env since
        env := by simp [hts]
    have htime : (Prog.timestamp : Contract Nat).Returns f env f.timestamp env := rfl
    rw [Prog.SilentAt, hsince.bind_apply, htime.bind_apply, if_pos (h since hts)]
    exact .refl env

/-- What the two accepts do up to the expiry check is atomic where it finds no proposal lapsed. -/
theorem atomicAt_of_not_lapsed {f : Frame Address} {s : Storage} {role : Role} {caller : Address}
    (h : ∀ candidate, ¬ FindsLapse ⟨s, ⟨role.accept caller, f⟩⟩ role caller candidate)
    (expiry : Address → Event) {rest : Address → Contract Unit} (hrest : ∀ a, (rest a).Atomic) :
    (do
      Contract.reads checkVersion
      Contract.reads requireNotFrozen
      Prog.requireAuth caller
      let pending ← Contract.getOr (.pending role) .NoPendingTransfer
      requireProposalValid role expiry
      rest pending).AtomicAt f ⟨s, [], []⟩ := by
  refine .bind (Prog.Silent.reads _ _ _) fun _ mid hversion => ?_
  obtain ⟨version, rfl⟩ := (Prog.returns_reads ..).mp hversion
  refine .bind (Prog.Silent.reads _ _ _) fun _ mid hthawed => ?_
  obtain ⟨thawed, rfl⟩ := (Prog.returns_reads ..).mp hthawed
  refine .bind (Prog.Silent.requireAuth _ _ _) fun _ mid hsigned => ?_
  obtain ⟨signed, rfl⟩ := (Prog.returns_requireAuth ..).mp hsigned
  refine .bind (Prog.Silent.getOr _ _ _ _) fun candidate mid hpending => ?_
  obtain ⟨pending, rfl⟩ := (Prog.returns_getOr ..).mp hpending
  refine .bind (requireProposalValid_silentAt ?_ expiry) fun _ mid _ => hrest candidate f mid
  intro since hts
  by_contra hlapsed
  exact h candidate ⟨⟨rfl, checkVersion_eq_ok.mp version, requireNotFrozen_eq_ok.mp thawed, signed⟩,
    pending, since, hts, Nat.not_le.mp hlapsed⟩

theorem accept_atomicAt {f : Frame Address} {s : Storage} (role : Role) (caller : Address)
    (h : ∀ candidate, ¬ FindsLapse ⟨s, ⟨role.accept caller, f⟩⟩ role caller candidate) :
    (exec (role.accept caller)).AtomicAt f ⟨s, [], []⟩ := by
  have hrest : ∀ (holder : StorageKey) (v : holder.Val) (ev : Event) (pending : Address),
      Prog.Atomic (do
        Contract.failIf (caller ≠ pending) .Unauthorized
        Contract.set holder v
        Contract.remove (.pending role)
        Contract.remove (.pendingTs role)
        Contract.publish ev) := fun _ _ _ _ =>
    .bind (.failIf _ _) fun _ => Prog.Total.atomic <| .bind (.set _ _) fun _ =>
      .bind (.remove _) fun _ => .bind (.remove _) fun _ => .publish _
  cases role with
  | admin => exact (atomicAt_of_not_lapsed h _ (hrest _ _ _)).bind_total fun _ => .pure _
  | operator => exact (atomicAt_of_not_lapsed h _ (hrest _ _ _)).bind_total fun _ => .pure _

/-! ## Lifecycle -/

theorem initializeContract_atomic (admin operator : Address) :
    (initializeContract admin operator).Atomic := by
  have hset : ∀ (k : StorageKey) (v : k.Val) {m : Contract Unit}, m.Total →
      Prog.Total (do Contract.set k v; m) := fun _ _ _ hm => .bind (.set _ _) fun _ => hm
  have hwrites : (initializeWrites admin operator).Total := by
    iterate 14 apply hset
    exact .set _ _
  exact .bind (.has _) fun _ => .bind (.failIf _ _) fun _ => .bind (.requireAuth _) fun _ =>
    .ite _ (.bind (.requireAuth _) fun _ => hwrites.atomic) hwrites.atomic

/-- The arms of `migrate` from the stored version on, and the check behind them. -/
def migrateChecked (stored : Nat) : Contract Nat := do
  let current ← migrateArm 0 migrateV0 stored
  let current ← migrateArm 1 migrateV1 current
  let current ← migrateArm 2 migrateV2 current
  Contract.failIf (current ≠ storageVersion) .VersionMismatch
  pure current

theorem migrate_atomic (caller : Address) : (migrate caller).Atomic := by
  refine .bind (.requireAuth _) fun _ => .bind (.getOr _ _) fun admin => .bind (.failIf _ _)
    fun _ => .bind (.getD _ _) fun stored => ?_
  by_cases hcurrent : stored = storageVersion
  · rw [if_pos hcurrent]
    exact (Prog.Silent.pure ()).atomic
  · rw [if_neg hcurrent]
    intro f env
    refine .bind (Prog.Silent.failIf _ _ _ _) fun _ mid hknown => ?_
    obtain ⟨hknown, -⟩ := (Prog.returns_failIf ..).mp hknown
    have hold : stored ≤ 2 := Nat.le_of_lt_succ (Nat.lt_of_le_of_ne (Nat.not_lt.mp hknown) hcurrent)
    have harms := migrateArms_eq hold fun current =>
      Contract.publish (.migrateDone caller stored current)
    rw [harms]
    exact (Prog.Total.bind (schemaStep_armsFrom stored).total fun _ => .publish _).atomic f mid

/-- The check behind the arms passes, whatever version they start from. -/
theorem migrateChecked_returns {stored : Nat} (hold : stored < storageVersion) (f : Frame Address)
    (env : ContractEnv) : ∃ env', (migrateChecked stored).Returns f env storageVersion env' := by
  obtain ⟨_, env', harms⟩ := (schemaStep_armsFrom stored).total f env
  refine ⟨env', ?_⟩
  rw [migrateChecked, migrateArms_eq (Nat.le_of_lt_succ hold) pure]
  exact (Prog.returns_bind ..).mpr ⟨_, env', harms, rfl⟩

theorem pause_atomic (caller : Address) (reason : List UInt8) : (pause caller reason).Atomic :=
  atomic_of_admin <| .bind (.failIf _ _) fun _ => Prog.Total.atomic <| .bind .timestamp fun _ =>
    .bind (.set _ _) fun _ => .bind (.set _ _) fun _ => .publish _

theorem unpause_atomic (caller : Address) : (unpause caller).Atomic :=
  atomic_of_admin <| Prog.Total.atomic <| .bind (.set _ _) fun _ => .bind (.remove _) fun _ =>
    .publish _

theorem freezeConfig_atomic (caller : Address) : (freezeConfig caller).Atomic :=
  atomic_of_admin <| Prog.Total.atomic <|
    .bind (.bind (.ask _) fun _ => .ite _ (.pure _) (.bind (.set _ _) fun _ => .pure _))
      fun _ => .ite _ (.publish _) (.pure _)

theorem unfreezeConfig_atomic (caller : Address) : (unfreezeConfig caller).Atomic :=
  atomic_of_admin <| Prog.Total.atomic <|
    .bind (.bind (.ask _) fun _ => .ite _ (.bind (.set _ _) fun _ => .pure _) (.pure _))
      fun _ => .ite _ (.publish _) (.pure _)

/-! ## Configuration updates -/

/-- `set_config` up to its registry recording. -/
def setConfigWrites (caller : Address) (severity : Symbol) (threshold_minutes : Nat)
    (penalty_per_minute reward_base : Int) : Contract Unit := do
  Contract.reads checkVersion
  requireAdmin caller
  Contract.reads requireNotFrozen
  Contract.reads fun _ => validateConfig severity threshold_minutes penalty_per_minute reward_base
  Contract.reads (validateCrossSeverityPenaltyOrdering severity penalty_per_minute)
  Contract.reads (validateCrossSeverityThresholdOrdering severity threshold_minutes)
  let configs ← Contract.getOr .config .NotInitialized
  let configs := configs.set severity ⟨threshold_minutes, penalty_per_minute, reward_base⟩
  Contract.set .config configs
  Contract.set .configCount configs.len
  recordConfigUpdate

/-- `set_custom_severity` up to its registry recording. -/
def setCustomSeverityWrites (caller : Address) (severity : Symbol) (threshold_minutes : Nat)
    (penalty_per_minute reward_base : Int) : Contract Bool := do
  Contract.reads checkVersion
  requireAdmin caller
  Contract.reads requireNotFrozen
  Contract.failIf (isCanonicalSeverity severity = true) .InvalidSeverity
  Contract.reads fun _ => validateGeneralBounds threshold_minutes penalty_per_minute reward_base
  let custom ← Contract.getD .customConfig OrdMap.empty
  let is_update := custom.contains severity
  Contract.set .customConfig
    (custom.set severity ⟨threshold_minutes, penalty_per_minute, reward_base⟩)
  recordConfigUpdate
  pure is_update

theorem setConfig_eq (caller : Address) (severity : Symbol) (threshold : Nat)
    (penalty reward : Int) :
    setConfig caller severity threshold penalty reward = (do
      setConfigWrites caller severity threshold penalty reward
      recordConfigRegistry
      Contract.publish (.configUpd severity threshold penalty reward)) := by
  simp only [setConfig, setConfigWrites, Prog.bind_assoc]

theorem setCustomSeverity_eq (caller : Address) (severity : Symbol) (threshold : Nat)
    (penalty reward : Int) :
    setCustomSeverity caller severity threshold penalty reward = (do
      let is_update ← setCustomSeverityWrites caller severity threshold penalty reward
      recordConfigRegistry
      Contract.publish (if is_update then .sevUpd severity threshold penalty reward
        else .sevAdd severity threshold penalty reward)) := by
  simp only [setCustomSeverity, setCustomSeverityWrites, Prog.bind_assoc]
  rfl

theorem setConfigWrites_atomic (caller : Address) (severity : Symbol) (threshold : Nat)
    (penalty reward : Int) :
    (setConfigWrites caller severity threshold penalty reward).Atomic :=
  atomic_of_admin <| .bind (.reads _) fun _ => .bind (.reads _) fun _ => .bind (.reads _) fun _ =>
    .bind (.reads _) fun _ => .bind (.getOr _ _) fun _ => Prog.Total.atomic <|
      .bind (.set _ _) fun _ => .bind (.set _ _) fun _ => .bind .sequence fun _ => .set _ _

theorem setCustomSeverityWrites_atomic (caller : Address) (severity : Symbol) (threshold : Nat)
    (penalty reward : Int) :
    (setCustomSeverityWrites caller severity threshold penalty reward).Atomic :=
  .bind (.reads _) fun _ => .bind (requireAdmin_silent _) fun _ => .bind (.reads _) fun _ =>
    .bind (.failIf _ _) fun _ => .bind (.reads _) fun _ => .bind (.getD _ _) fun _ =>
      Prog.Total.atomic <| .bind (.set _ _) fun _ =>
        .bind (.bind .sequence fun _ => .set _ _) fun _ => .pure _

section Registry

variable {f : Frame Address} {txs : List ContractTx} {mid : ContractEnv} {caller : Address}
  {severity : Symbol} {threshold : Nat} {penalty reward : Int} {u : Unit} {b : Bool}

/-- Where `set_config` has made its writes, the registry recording returns. -/
theorem registry_after_setConfigWrites
    (h : (setConfigWrites caller severity threshold penalty reward).Returns f
      ⟨after txs, [], []⟩ u mid) : ∃ env', recordConfigRegistry.Returns f mid () env' := by
  simp [setConfigWrites, recordConfigUpdate] at h
  obtain ⟨version, -, -, -, -, ⟨_, valid⟩, ⟨_, penalties⟩, ⟨_, thresholds⟩, configs, stored,
    rfl⟩ := h
  refine (ConfigSound.answers ?_).registry f _ rfl
  have hok : Acceptable (after txs) severity ⟨threshold, penalty, reward⟩ :=
    ⟨valid, penalties, thresholds⟩
  exact (configSound_of_stored version).update stored hok (by simp) (by simp) (by simp)

/-- Where `set_custom_severity` has made its writes, the registry recording returns. -/
theorem registry_after_setCustomSeverityWrites
    (h : (setCustomSeverityWrites caller severity threshold penalty reward).Returns f
      ⟨after txs, [], []⟩ b mid) : ∃ env', recordConfigRegistry.Returns f mid () env' := by
  simp [setCustomSeverityWrites, recordConfigUpdate] at h
  obtain ⟨version, -, -, -, -, -, -, -, rfl⟩ := h
  refine (ConfigSound.answers ?_).registry f _ rfl
  exact (configSound_of_stored version).congr (by simp) (by simp) (by simp)

theorem setConfig_atomicAt :
    (setConfig caller severity threshold penalty reward).AtomicAt f ⟨after txs, [], []⟩ := by
  rw [setConfig_eq]
  refine (setConfigWrites_atomic _ _ _ _ _ f _).bind_returns fun _ mid hr => ?_
  obtain ⟨env', hregistry⟩ := registry_after_setConfigWrites hr
  exact ⟨(), _, (Prog.returns_bind ..).mpr ⟨(), env', hregistry, rfl⟩⟩

theorem setCustomSeverity_atomicAt :
    (setCustomSeverity caller severity threshold penalty reward).AtomicAt f
      ⟨after txs, [], []⟩ := by
  rw [setCustomSeverity_eq]
  refine (setCustomSeverityWrites_atomic _ _ _ _ _ f _).bind_returns fun _ mid hr => ?_
  obtain ⟨env', hregistry⟩ := registry_after_setCustomSeverityWrites hr
  exact ⟨(), _, (Prog.returns_bind ..).mpr ⟨(), env', hregistry, rfl⟩⟩

end Registry

theorem removeCustomSeverity_atomic (caller : Address) (severity : Symbol) :
    (removeCustomSeverity caller severity).Atomic :=
  atomic_of_admin <| .bind (.reads _) fun _ => .bind (.getD _ _) fun _ => .bind (.failIf _ _)
    fun _ => Prog.Total.atomic <| .bind (.set _ _) fun _ => .publish _

/-! ## Calculation and history -/

/-- The fresh decision of `calculate_sla` is stored behind its checks, and a conflicting
submission publishes an event but writes nothing. -/
theorem calculateSla_atomic (caller : Address) (outage_id severity : Symbol) (mttr : Nat) :
    (calculateSla caller outage_id severity mttr).Atomic := by
  refine .bind (.reads _) fun _ => .bind (.reads _) fun _ => .bind (.reads _) fun _ =>
    .bind (requireOperator_silent _) fun _ => .bind (.reads _) fun cfg => .bind (.reads _)
      fun hash => .bind .timestamp fun _ => .bind (.reads _) fun result => .bind (.ask _)
        fun indices => .bind (.ask _) fun existing => ?_
  have hrecord := (recordDecision_total severity result indices).atomic
  cases existing with
  | none => exact hrecord
  | some prev =>
    have hconflict : Prog.Silent (do
        Contract.publish (.dupInput severity prev (some (mttr, cfg.threshold_minutes)))
        (Prog.fail .DuplicateOutageInput : Contract SLAResult)) :=
      .bind (.publish _) fun _ => .fail _
    exact .ite _ (.ite _ hconflict.atomic (Prog.Silent.pure _).atomic)
      (.ite _ (Prog.Silent.fail _).atomic hrecord)

theorem pruneHistory_atomic (caller : Address) (keep : Nat) :
    (pruneHistory caller keep).Atomic :=
  atomic_of_admin <| Prog.Total.atomic <| .bind (History.pruneOldest_total _) fun _ => .publish _

theorem pruneHistoryByAge_atomic (caller : Address) (min_age : Nat) :
    (pruneHistoryByAge caller min_age).Atomic :=
  atomic_of_admin <| .bind .timestamp fun _ => .bind (.failIf _ _) fun _ => Prog.Total.atomic <|
    .bind (.ask _) fun _ =>
      .ite _ (.bind (History.rebuildHistory_total _) fun _ => .publish _) (.publish _)

theorem setRetentionLimit_atomic (caller : Address) (limit : Nat) :
    (setRetentionLimit caller limit).Atomic :=
  atomic_of_admin <| .bind (.reads _) fun _ => .bind (.failIf _ _) fun _ => Prog.Total.atomic <|
    .bind (.set _ _) fun _ => .bind (.publish _) fun _ =>
      .bind (History.pruneOldest_total _) fun _ => .ite _ (.publish _) (.pure _)

/-! ## Every call -/

/-- A call that finds no proposal lapsed is atomic. -/
theorem exec_atomicAt {txs : List ContractTx} {tx : ContractTx}
    (h : ∀ role caller candidate, ¬ FindsLapse ⟨after txs, tx⟩ role caller candidate) :
    (exec tx.call).AtomicAt tx.frame ⟨after txs, [], []⟩ := by
  obtain ⟨call, f⟩ := tx
  have hunit : ∀ {m : Contract Unit}, m.AtomicAt f ⟨after txs, [], []⟩ →
      (replyUnit m).AtomicAt f ⟨after txs, [], []⟩ := fun hm => hm.bind_total fun _ => .pure _
  cases call with
  | initializeContract => exact hunit (initializeContract_atomic _ _ _ _)
  | migrate => exact hunit (migrate_atomic _ _ _)
  | setOperator => exact hunit (setOperator_atomic _ _ _ _)
  | proposeAdmin => exact hunit (proposeAdmin_atomic _ _ _ _)
  | acceptAdmin caller => exact accept_atomicAt .admin caller (h .admin caller)
  | cancelAdminProposal => exact hunit (cancelAdminProposal_atomic _ _ _)
  | proposeOperator => exact hunit (proposeOperator_atomic _ _ _ _)
  | acceptOperator caller => exact accept_atomicAt .operator caller (h .operator caller)
  | cancelOperatorProposal => exact hunit (cancelOperatorProposal_atomic _ _ _)
  | renounceAdmin => exact hunit (renounceAdmin_atomic _ _ _)
  | pause => exact hunit (pause_atomic _ _ _ _)
  | unpause => exact hunit (unpause_atomic _ _ _)
  | freezeConfig => exact hunit (freezeConfig_atomic _ _ _)
  | unfreezeConfig => exact hunit (unfreezeConfig_atomic _ _ _)
  | setConfig => exact hunit setConfig_atomicAt
  | setCustomSeverity => exact hunit setCustomSeverity_atomicAt
  | removeCustomSeverity => exact hunit (removeCustomSeverity_atomic _ _ _ _)
  | calculateSla => exact (calculateSla_atomic _ _ _ _ _ _).bind_total fun _ => .pure _
  | pruneHistory => exact hunit (pruneHistory_atomic _ _ _ _)
  | pruneHistoryByAge => exact hunit (pruneHistoryByAge_atomic _ _ _ _)
  | setRetentionLimit => exact hunit (setRetentionLimit_atomic _ _ _ _)

/-- After `txs`, the errors of the calls have written nothing, but for the accepts that find their
proposal lapsed, which have removed the two keys of its slot. The registry recordings of
`set_config` and `set_custom_severity` return, and so does the check behind the arms of `migrate`,
whose errors have written nothing on any storage. -/
structure ErrorsAtomic (txs : List ContractTx) : Prop where
  unwritten : ∀ tx e env', (exec tx.call).Fails tx.frame ⟨after txs, [], []⟩ (.err e) env' →
    (∀ role caller candidate, ¬ FindsLapse ⟨after txs, tx⟩ role caller candidate) →
      env'.storage = after txs ∧ env'.writes = []
  lapsed : ∀ tx role caller candidate, FindsLapse ⟨after txs, tx⟩ role caller candidate →
    ∃ env', (exec tx.call).Fails tx.frame ⟨after txs, [], []⟩ (.err .ProposalExpired) env' ∧
      env'.storage = clearedPending (after txs) role ∧
      env'.writes = [.pending role, .pendingTs role]
  recordsConfig : ∀ f caller severity threshold penalty reward u mid,
    (setConfigWrites caller severity threshold penalty reward).Returns f ⟨after txs, [], []⟩ u
      mid → ∃ env', recordConfigRegistry.Returns f mid () env'
  recordsCustom : ∀ f caller severity threshold penalty reward is_update mid,
    (setCustomSeverityWrites caller severity threshold penalty reward).Returns f
      ⟨after txs, [], []⟩ is_update mid → ∃ env', recordConfigRegistry.Returns f mid () env'
  checks : ∀ f env stored, stored < storageVersion →
    ∃ env', (migrateChecked stored).Returns f env storageVersion env'
  migrates : ∀ caller, (migrate caller).Atomic

/-- Errors are atomic in every reachable state. -/
theorem errors_atomic (txs : List ContractTx) : ErrorsAtomic txs where
  unwritten := by
    intro tx e env' hfails h
    have hunwritten := exec_atomicAt h e env' hfails
    exact ⟨hunwritten.storage, hunwritten.writes⟩
  lapsed := fun _ _ _ _ h => ⟨_, h.fails, rfl, rfl⟩
  recordsConfig := fun _ _ _ _ _ _ _ _ h => registry_after_setConfigWrites h
  recordsCustom := fun _ _ _ _ _ _ _ _ h => registry_after_setCustomSeverityWrites h
  checks := fun f env _ hold => migrateChecked_returns hold f env
  migrates := migrate_atomic

end ApexChainx
