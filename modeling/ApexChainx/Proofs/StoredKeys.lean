import Mathlib.Data.Set.Finite.Basic
import ApexChainx.Host.Preserves
import ApexChainx.Proofs.Runs

/-!
# The keys a deployment stores

Any call may write any key, but only seven kinds of key are ever removed. So a property of the
storage that every write and those removals keep is kept by every call (`exec_preserves`). Two
such properties hold along every run: finitely many keys are stored, and what `initialize` has
stored eagerly stays stored, but for the admin.
-/

namespace ApexChainx

open Host Misc

/-- The keys that some call removes. -/
def isRemovable : StorageKey → Bool
  | .admin | .pending _ | .pendingTs _ | .pauseInfo => true
  | .history | .histEntry _ | .histIndex _ => true
  | _ => false

/-- Writes and the removals that occur keep the property. -/
structure Lasting (I : Storage → Prop) : Prop where
  set : ∀ s k v, I s → I (s.set k v)
  remove : ∀ s k, isRemovable k = true → I s → I (s.remove k)

section Programs

variable {I : Storage → Prop} (hI : Lasting I)

theorem requireAdmin_preserves (caller : Address) : (requireAdmin caller).Preserves I :=
  .bind (.requireAuth _) fun _ => .bind (.has _) fun _ => .bind (.failIf _ _) fun _ =>
    .bind (.getOr _ _) fun _ => .failIf _ _

theorem requireOperator_preserves (caller : Address) : (requireOperator caller).Preserves I :=
  .bind (.requireAuth _) fun _ => .bind (.getOr _ _) fun _ => .failIf _ _

include hI

theorem Lasting.write {k : StorageKey} (v : k.Val) : (Contract.set k v).Preserves I :=
  .set (fun s v => hI.set s k v) v

theorem Lasting.removal {k : StorageKey} (hk : isRemovable k = true) :
    (Contract.remove k).Preserves I := .remove fun s => hI.remove s k hk

/-! ## History -/

theorem dropOldest_preserves (h : Nat) : (History.dropOldest h).Preserves I :=
  .bind (.get _) fun _ => .bind (hI.removal rfl) fun _ => .whenSome _ fun _ =>
    .bind (.ask _) fun _ => hI.write _

theorem appendEntry_preserves (entry : SLAResult) (limit : Nat) (indices : List Nat) :
    (History.appendEntry entry limit indices).Preserves I :=
  .bind (.ask _) fun _ => .bind (.ask _) fun _ => .bind (hI.write _) fun _ =>
    .bind (hI.write _) fun _ => .bind (hI.write _) fun _ => .ite _
      (.bind (dropOldest_preserves hI _) fun _ => .bind (hI.write _) fun _ => hI.write _)
      (hI.write _)

theorem pruneOldest_preserves (keep_count : Nat) : (History.pruneOldest keep_count).Preserves I :=
  .bind (.ask _) fun _ => .bind (.ask _) fun _ => .ite _ (.pure _) <|
    .bind (.foldlM (fun _ _ => .bind (.get _) fun _ => .bind (hI.removal rfl) fun _ => .pure _) _ _)
      fun _ => .bind (.forM (fun _ => .bind (.ask _) fun _ => hI.write _) _) fun _ =>
        .bind (hI.write _) fun _ => .bind (hI.write _) fun _ => .pure _

theorem rebuildHistory_preserves (entries : List SLAResult) :
    (History.rebuildHistory entries).Preserves I :=
  .bind (.ask _) fun _ => .bind (.ask _) fun _ =>
    .bind (.foldlM (fun _ _ => .bind (.get _) fun _ =>
      .bind (.whenSome _ fun _ => hI.removal rfl) fun _ => .pure _) _ _) fun _ =>
    .bind (.forM (fun _ => hI.removal rfl) _) fun _ =>
    .bind (.foldlM (fun _ _ => .bind (hI.write _) fun _ => .pure _) _ _) fun _ =>
    .bind (.forM (fun _ => hI.write _) _) fun _ =>
    .bind (hI.write _) fun _ => .bind (hI.write _) fun _ => hI.write _

/-! ## Calculation -/

theorem recordSeverityTelemetry_preserves (severity : Symbol) (met : Bool) :
    (recordSeverityTelemetry severity met).Preserves I := by
  unfold recordSeverityTelemetry
  cases canonicalSeverityIndex severity with
  | some index =>
    exact .bind (.getD _ _) fun _ => .bind (.getD _ _) fun _ => .bind (.getD _ _) fun _ =>
      .bind (.getD _ _) fun _ => .bind .timestamp fun _ => .bind (hI.write _) fun _ =>
      .bind (hI.write _) fun _ => .bind (hI.write _) fun _ => hI.write _
  | none => exact .bind (.getD _ _) fun _ => .bind .timestamp fun _ => hI.write _

omit hI in
theorem incrementCounter_preserves (counter : Symbol) (value : Nat) :
    (incrementCounter counter value).Preserves I := by
  unfold incrementCounter
  cases checkedAdd 64 value 1 with
  | some v => exact .pure _
  | none => exact .bind (.publish _) fun _ => .pure _

omit hI in
theorem incrementTotal_preserves (counter : Symbol) (value amount : Int) :
    (incrementTotal counter value amount).Preserves I := by
  unfold incrementTotal
  cases checked 128 (value + amount) with
  | some v => exact .pure _
  | none => exact .bind (.publish _) fun _ => .pure _

theorem recordStats_preserves (result : SLAResult) : (recordStats result).Preserves I := by
  have hincrement : ∀ met reward penalty, (incrementStats met reward penalty).Preserves I :=
    fun met reward penalty => .bind (.getD _ _) fun _ =>
      .bind (incrementCounter_preserves _ _) fun _ => .ite _
        (.bind (incrementTotal_preserves _ _ _) fun _ => hI.write _)
        (.bind (incrementCounter_preserves _ _) fun _ =>
          .bind (incrementTotal_preserves _ _ _) fun _ => hI.write _)
  exact .ite _ (hincrement _ _ _) (hincrement _ _ _)

theorem recordDecision_preserves (severity : Symbol) (result : SLAResult) (indices : List Nat) :
    (recordDecision severity result indices).Preserves I :=
  .bind (recordSeverityTelemetry_preserves hI _ _) fun _ => .bind (.getD _ _) fun _ =>
    .bind (appendEntry_preserves hI _ _ _) fun _ => .bind (recordStats_preserves hI _) fun _ =>
    .bind .sequence fun _ => .bind (.publish _) fun _ => .bind (.publish _) fun _ => .pure _

theorem calculateSla_preserves (caller : Address) (outage_id severity : Symbol) (mttr : Nat) :
    (calculateSla caller outage_id severity mttr).Preserves I := by
  refine .bind (.reads _) fun _ => .bind (.reads _) fun _ => .bind (.reads _) fun _ =>
    .bind (requireOperator_preserves _) fun _ => .bind (.reads _) fun _ => .bind (.reads _) fun _ =>
    .bind .timestamp fun _ => .bind (.reads _) fun _ => .bind (.ask _) fun _ =>
    .bind (.ask _) fun existing => ?_
  cases existing with
  | none => exact recordDecision_preserves hI _ _ _
  | some prev =>
    exact .ite _ (.ite _ (.bind (.publish _) fun _ => .fail _) (.pure _))
      (.ite _ (.fail _) (recordDecision_preserves hI _ _ _))

/-! ## Migration -/

theorem setMissing_preserves (key : StorageKey) (v : key.Val) : (setMissing key v).Preserves I :=
  .bind (.has _) fun _ => .ite _ (.pure _) (hI.write _)

theorem initMissingStorageDefaults_preserves : initMissingStorageDefaults.Preserves I :=
  have missing := setMissing_preserves hI
  .bind (missing _ _) fun _ => .bind (missing _ _) fun _ => .bind (missing _ _) fun _ =>
    .bind (missing _ _) fun _ => .bind (missing _ _) fun _ => .bind (missing _ _) fun _ =>
    .bind (missing _ _) fun _ => .bind (.getD _ _) fun _ => .bind (missing _ _) fun _ =>
    .bind (missing _ _) fun _ => .bind (missing _ _) fun _ => .bind (.getD _ _) fun _ =>
    missing _ _

theorem migrate_preserves (caller : Address) : (migrate caller).Preserves I := by
  have hv0 : migrateV0.Preserves I :=
    .bind (initMissingStorageDefaults_preserves hI) fun _ => hI.write _
  have hv1 : migrateV1.Preserves I :=
    .bind (.getD _ _) fun _ => .bind (hI.write _) fun _ => hI.write _
  have hv2 : migrateV2.Preserves I :=
    .bind (.getD _ _) fun _ => .bind (hI.removal rfl) fun _ =>
      .bind (rebuildHistory_preserves hI _) fun _ => .bind (.getD _ _) fun _ =>
      .bind (hI.write _) fun _ => hI.write _
  have harm : ∀ version arm current, arm.Preserves I →
      (migrateArm version arm current).Preserves I :=
    fun _ _ _ h => .ite _ (.bind h fun _ => .pure _) (.pure _)
  exact .bind (.requireAuth _) fun _ => .bind (.getOr _ _) fun _ => .bind (.failIf _ _) fun _ =>
    .bind (.getD _ _) fun _ => .ite _ (.pure _) <| .bind (.failIf _ _) fun _ =>
    .bind (harm _ _ _ hv0) fun _ => .bind (harm _ _ _ hv1) fun _ => .bind (harm _ _ _ hv2) fun _ =>
    .bind (.failIf _ _) fun _ => .publish _

/-! ## Governance -/

theorem clearPending_preserves (role : Role) {m : Contract Unit} (hm : m.Preserves I) :
    (do Contract.remove (.pending role); Contract.remove (.pendingTs role); m).Preserves I :=
  .bind (hI.removal rfl) fun _ => .bind (hI.removal rfl) fun _ => hm

theorem dropPendingOperator_preserves (caller : Address) :
    (dropPendingOperator caller).Preserves I :=
  .bind (.has _) fun _ => .ite _ (clearPending_preserves hI _ (.publish _)) (.pure _)

theorem requireProposalValid_preserves (role : Role) (expiry_event : Address → Event) :
    (requireProposalValid role expiry_event).Preserves I :=
  .bind (.getOr _ _) fun _ => .bind .timestamp fun _ => .ite _ (.pure _) <|
    .bind (.get _) fun _ => .bind (.whenSome _ fun _ => .publish _) fun _ =>
      clearPending_preserves hI _ (.fail _)

/-- The two proposals, once their guards have passed. -/
theorem propose_preserves (role : Role) (candidate : Address) (sup : Address → Event) (e : Event) :
    (do
      let superseded ← Contract.get (.pending role)
      Contract.set (.pending role) candidate
      let now ← Prog.timestamp
      Contract.set (.pendingTs role) now
      Prog.whenSome superseded (fun previous => Contract.publish (sup previous))
      Contract.publish e : Contract Unit).Preserves I :=
  .bind (.get _) fun _ => .bind (hI.write _) fun _ => .bind .timestamp fun _ =>
    .bind (hI.write _) fun _ => .bind (.whenSome _ fun _ => .publish _) fun _ => .publish _

omit hI in
/-- The guards of the governance calls of the admin. -/
theorem thawedAdmin_preserves (caller : Address) {m : Contract Unit} (hm : m.Preserves I) :
    (do Contract.reads checkVersion; Contract.reads requireNotFrozen; requireAdmin caller;
        m).Preserves I :=
  .bind (.reads _) fun _ => .bind (.reads _) fun _ => .bind (requireAdmin_preserves _) fun _ => hm

omit hI in
/-- The guards of the other calls of the admin. -/
theorem admin_preserves (caller : Address) {m : Contract Unit} (hm : m.Preserves I) :
    (do Contract.reads checkVersion; requireAdmin caller; m).Preserves I :=
  .bind (.reads _) fun _ => .bind (requireAdmin_preserves _) fun _ => hm

/-- The two cancellations, once their guards have passed. -/
theorem cancel_preserves (role : Role) (e : Event) :
    (do
      let pending ← Contract.has (.pending role)
      Contract.failIf (pending = false) .NoPendingTransfer
      Contract.remove (.pending role)
      Contract.remove (.pendingTs role)
      Contract.publish e : Contract Unit).Preserves I :=
  .bind (.has _) fun _ => .bind (.failIf _ _) fun _ => clearPending_preserves hI _ (.publish _)

theorem acceptAdmin_preserves (caller : Address) : (acceptAdmin caller).Preserves I :=
  .bind (.reads _) fun _ => .bind (.reads _) fun _ => .bind (.requireAuth _) fun _ =>
    .bind (.getOr _ _) fun _ => .bind (requireProposalValid_preserves hI _ _) fun _ =>
    .bind (.failIf _ _) fun _ => .bind (hI.write _) fun _ =>
      clearPending_preserves hI _ (.publish _)

theorem acceptOperator_preserves (caller : Address) : (acceptOperator caller).Preserves I :=
  .bind (.reads _) fun _ => .bind (.reads _) fun _ => .bind (.requireAuth _) fun _ =>
    .bind (.getOr _ _) fun _ => .bind (requireProposalValid_preserves hI _ _) fun _ =>
    .bind (.failIf _ _) fun _ => .bind (hI.write _) fun _ =>
      clearPending_preserves hI _ (.publish _)

theorem renounceAdmin_preserves (caller : Address) : (renounceAdmin caller).Preserves I :=
  thawedAdmin_preserves _ <| .bind (hI.write _) fun _ => .bind (hI.removal rfl) fun _ =>
    clearPending_preserves hI _ <| .bind (dropPendingOperator_preserves hI _) fun _ => .publish _

theorem setOperator_preserves (caller new_operator : Address) :
    (setOperator caller new_operator).Preserves I :=
  thawedAdmin_preserves _ <| .bind (dropPendingOperator_preserves hI _) fun _ =>
    .bind (hI.write _) fun _ => .publish _

theorem proposeAdmin_preserves (caller new_admin : Address) :
    (proposeAdmin caller new_admin).Preserves I :=
  thawedAdmin_preserves _ <| .bind (.bind (.getOr _ _) fun _ => .failIf _ _) fun _ =>
    propose_preserves hI _ _ _ _

/-! ## Lifecycle and configuration -/

theorem initializeContract_preserves (admin operator : Address) :
    (initializeContract admin operator).Preserves I := by
  have hset : ∀ (k : StorageKey) (v : k.Val) {m : Contract Unit}, m.Preserves I →
      (do Contract.set k v; m).Preserves I := fun _ _ _ hm => .bind (hI.write _) fun _ => hm
  refine .bind (.has _) fun _ => .bind (.failIf _ _) fun _ => .bind (.requireAuth _) fun _ => ?_
  refine Prog.Preserves.ite _ (.bind (.requireAuth _) fun _ => ?_) ?_
  all_goals
    iterate 14 apply hset
    exact hI.write _

theorem freezeFlag_preserves : freezeFlag.Preserves I :=
  .bind (.ask _) fun _ => .ite _ (.pure _) (.bind (hI.write _) fun _ => .pure _)

theorem unfreezeFlag_preserves : unfreezeFlag.Preserves I :=
  .bind (.ask _) fun _ => .ite _ (.bind (hI.write _) fun _ => .pure _) (.pure _)

/-- The stamp, the registration and the event that end a configuration update. -/
theorem recordConfig_preserves (e : Event) :
    (do recordConfigUpdate; recordConfigRegistry; Contract.publish e : Contract Unit).Preserves I :=
  .bind (.bind .sequence fun _ => hI.write _) fun _ =>
    .bind (.bind (.reads _) fun _ => .bind (.reads _) fun _ => .bind (.getD _ _) fun _ =>
      hI.write _) fun _ => .publish _

theorem setConfig_preserves (caller : Address) (severity : Symbol) (threshold : Nat)
    (penalty reward : Int) : (setConfig caller severity threshold penalty reward).Preserves I :=
  admin_preserves _ <| .bind (.reads _) fun _ => .bind (.reads _) fun _ => .bind (.reads _) fun _ =>
    .bind (.reads _) fun _ => .bind (.getOr _ _) fun _ => .bind (hI.write _) fun _ =>
    .bind (hI.write _) fun _ => recordConfig_preserves hI _

theorem setCustomSeverity_preserves (caller : Address) (severity : Symbol) (threshold : Nat)
    (penalty reward : Int) :
    (setCustomSeverity caller severity threshold penalty reward).Preserves I :=
  admin_preserves _ <| .bind (.reads _) fun _ => .bind (.failIf _ _) fun _ =>
    .bind (.reads _) fun _ => .bind (.getD _ _) fun _ => .bind (hI.write _) fun _ =>
    recordConfig_preserves hI _

/-! ## Every call -/

/-- Every call keeps what writes and the removals that occur keep. -/
theorem exec_preserves (c : Call) : (exec c).Preserves I := by
  have hunit : ∀ {m : Contract Unit}, m.Preserves I → (replyUnit m).Preserves I :=
    fun hm => .bind hm fun _ => .pure _
  cases c with
  | initializeContract => exact hunit (initializeContract_preserves hI _ _)
  | migrate => exact hunit (migrate_preserves hI _)
  | setOperator => exact hunit (setOperator_preserves hI _ _)
  | proposeAdmin => exact hunit (proposeAdmin_preserves hI _ _)
  | acceptAdmin => exact hunit (acceptAdmin_preserves hI _)
  | cancelAdminProposal =>
    exact hunit (thawedAdmin_preserves _ (cancel_preserves hI _ _))
  | proposeOperator =>
    exact hunit (thawedAdmin_preserves _ (propose_preserves hI _ _ _ _))
  | acceptOperator => exact hunit (acceptOperator_preserves hI _)
  | cancelOperatorProposal =>
    exact hunit (thawedAdmin_preserves _ (cancel_preserves hI _ _))
  | renounceAdmin => exact hunit (renounceAdmin_preserves hI _)
  | pause =>
    exact hunit <| admin_preserves _ <| .bind (.failIf _ _) fun _ =>
      .bind .timestamp fun _ => .bind (hI.write _) fun _ => .bind (hI.write _) fun _ => .publish _
  | unpause =>
    exact hunit <| admin_preserves _ <| .bind (hI.write _) fun _ =>
      .bind (hI.removal rfl) fun _ => .publish _
  | freezeConfig =>
    exact hunit <| admin_preserves _ <| .bind (freezeFlag_preserves hI) fun _ =>
      .ite _ (.publish _) (.pure _)
  | unfreezeConfig =>
    exact hunit <| admin_preserves _ <| .bind (unfreezeFlag_preserves hI) fun _ =>
      .ite _ (.publish _) (.pure _)
  | setConfig => exact hunit (setConfig_preserves hI _ _ _ _ _)
  | setCustomSeverity => exact hunit (setCustomSeverity_preserves hI _ _ _ _ _)
  | removeCustomSeverity =>
    exact hunit <| admin_preserves _ <| .bind (.reads _) fun _ =>
      .bind (.getD _ _) fun _ => .bind (.failIf _ _) fun _ => .bind (hI.write _) fun _ => .publish _
  | calculateSla => exact .bind (calculateSla_preserves hI _ _ _ _) fun _ => .pure _
  | pruneHistory =>
    exact hunit <| admin_preserves _ <| .bind (pruneOldest_preserves hI _) fun _ =>
      .publish _
  | pruneHistoryByAge =>
    exact hunit <| admin_preserves _ <| .bind .timestamp fun _ =>
      .bind (.failIf _ _) fun _ => .bind (.ask _) fun _ =>
      .ite _ (.bind (rebuildHistory_preserves hI _) fun _ => .publish _) (.publish _)
  | setRetentionLimit =>
    exact hunit <| admin_preserves _ <| .bind (.reads _) fun _ =>
      .bind (.failIf _ _) fun _ => .bind (hI.write _) fun _ => .bind (.publish _) fun _ =>
      .bind (pruneOldest_preserves hI _) fun _ => .ite _ (.publish _) (.pure _)

end Programs

/-! ## What is stored along a run -/

/-- A write adds one key at most, and a removal none. -/
theorem lasting_finite : Lasting fun s => {k | (s k).isSome}.Finite where
  set s k v h := by
    refine (h.insert k).subset fun j hj => ?_
    by_cases hjk : j = k
    · exact .inl hjk
    · exact .inr (by simpa [hjk] using hj)
  remove s k _ h := by
    refine h.subset fun j hj => ?_
    by_cases hjk : j = k
    · subst hjk
      simp at hj
    · simpa [hjk] using hj

/-- A key that no call removes stays once it is stored. -/
theorem lasting_stored {k : StorageKey} (hk : isRemovable k = false) :
    Lasting fun s => (s k).isSome where
  set s j v h := by
    by_cases hjk : k = j
    · subst hjk
      simp
    · simpa [hjk] using h
  remove s j hj h := by
    have hjk : k ≠ j := by
      rintro rfl
      rw [hk] at hj
      cases hj
    simpa [hjk] using h

/-- A run leaves finitely many keys stored. -/
theorem finite_after (txs : List ContractTx) : {k | (after txs k).isSome}.Finite := by
  refine preserved_run (exec_preserves lasting_finite) ?_ txs
  simp

/-- The keys `initialize` stores that no call removes. -/
def isEagerKey : StorageKey → Bool
  | .operator | .config | .paused | .stats => true
  | .severityCalcCounts | .severityViolCounts | .lastCalculationTs | .lastViolationTs => true
  | .historyLen | .histHead | .histTail => true
  | .configCount | .customConfig | .storageVersion => true
  | _ => false

/-- Once the contract is initialized, the keys `initialize` stores are there. -/
theorem eager_after {txs : List ContractTx} (h : after txs ≠ Store.empty) {k : StorageKey}
    (hk : isEagerKey k = true) : (after txs k).isSome := by
  have hfresh : after txs = Store.empty ∨ (after txs k).isSome := by
    refine after_induction (P := fun _ s => s = Store.empty ∨ (s k).isSome) (.inl rfl) ?_
      (fun _ _ _ h _ => h) txs
    intro txs tx r s' evs hP he hi
    rcases hP with hempty | hstored
    · rw [hempty] at he
      obtain ⟨admin, operator, -, rfl, -⟩ := effect_of_empty he
      refine .inr ?_
      cases k <;> simp [isEagerKey] at hk <;> simp [initializedStorage]
    · have hkeeps : isRemovable k = false := by cases k <;> simp_all [isEagerKey, isRemovable]
      have hafter := preserved_invoke (exec_preserves (lasting_stored hkeeps) tx.call) hstored
      rw [hi] at hafter
      exact .inr hafter
  exact hfresh.resolve_left h

end ApexChainx
