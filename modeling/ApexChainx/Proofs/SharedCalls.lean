import ApexChainx.Contract.SingleVector
import ApexChainx.Host.Lockstep
import ApexChainx.Proofs.Runs

/-!
# The keys the programs depend on

Each program runs in lockstep with itself from storages that agree on the keys it reads. A storage
key is shared when it does not belong to a representation of the history: the entry points that do
not work on the history read and write shared keys only. The pause flag is a shared key that
`calculate_sla` alone reads.
-/

namespace ApexChainx

open Host Misc

/-- The key belongs to neither representation of the history, and is not `TTOTENT`. -/
def isShared (k : StorageKey) : Bool :=
  !History.isHistoryKey k && k ≠ .history && k ≠ .totalEntries

/-- The keys the sharded contract and the single-vector one have in common. -/
def sharedKeys : Set StorageKey := {k | isShared k = true}

/-- The shared keys other than the pause flag. -/
def callKeys : Set StorageKey := {k | (isShared k && k ≠ .paused) = true}

theorem calls_shared : callKeys ⊆ sharedKeys := fun _ hk => (Bool.and_eq_true_iff.mp hk).1

/-! ## Reads of the configuration -/

section Config

variable {s s' : Storage}

theorem customConfigs_of_key (h : s .customConfig = s' .customConfig) :
    customConfigs s = customConfigs s' := by
  simp only [customConfigs, h]

variable (hconfig : s .config = s' .config)
  (hcustom : customConfigs s = customConfigs s')

include hconfig hcustom

theorem loadConfig_of_config (severity : Symbol) :
    loadConfig severity s = loadConfig severity s' := by
  simp only [loadConfig, hconfig, hcustom]

theorem foldLoadedConfigs_of_config (acc : Nat × Nat) (severities : List Symbol) :
    foldLoadedConfigs s acc severities = foldLoadedConfigs s' acc severities := by
  induction severities generalizing acc with
  | nil => rfl
  | cons severity rest ih =>
    simp only [foldLoadedConfigs, loadConfig_of_config hconfig hcustom, ih]

theorem computeConfigVersionHash_of_config :
    computeConfigVersionHash s = computeConfigVersionHash s' := by
  simp only [computeConfigVersionHash, foldLoadedConfigs_of_config hconfig hcustom, hcustom]

end Config

/-! ## Reads of shared keys -/

section Congr

variable {s s' : Storage} {S : Set StorageKey} (hS : callKeys ⊆ S) (h : Store.Agree S s s')

include hS h

theorem isConfigFrozen_congr : isConfigFrozen s = isConfigFrozen s' := by
  simp only [isConfigFrozen, h .freeze (hS rfl)]

theorem requireNotFrozen_congr : requireNotFrozen s = requireNotFrozen s' := by
  simp only [requireNotFrozen, isConfigFrozen_congr hS h]

theorem loadConfig_congr (severity : Symbol) : loadConfig severity s = loadConfig severity s' :=
  loadConfig_of_config (h .config (hS rfl)) (customConfigs_of_key (h .customConfig (hS rfl)))
    severity

theorem computeSeverityConfigHash_congr (severity : Symbol) :
    computeSeverityConfigHash severity s = computeSeverityConfigHash severity s' := by
  simp only [computeSeverityConfigHash, loadConfig_congr hS h]

theorem computeConfigVersionHash_congr :
    computeConfigVersionHash s = computeConfigVersionHash s' :=
  computeConfigVersionHash_of_config (h .config (hS rfl))
    (customConfigs_of_key (h .customConfig (hS rfl)))

theorem buildConfigSnapshot_congr : buildConfigSnapshot s = buildConfigSnapshot s' := by
  simp only [buildConfigSnapshot, h .config (hS rfl)]

theorem penaltyOrdering_congr (severity : Symbol) (penalty : Int) :
    validateCrossSeverityPenaltyOrdering severity penalty s =
      validateCrossSeverityPenaltyOrdering severity penalty s' := by
  simp only [validateCrossSeverityPenaltyOrdering, h .config (hS rfl)]

theorem thresholdOrdering_congr (severity : Symbol) (threshold : Nat) :
    validateCrossSeverityThresholdOrdering severity threshold s =
      validateCrossSeverityThresholdOrdering severity threshold s' := by
  simp only [validateCrossSeverityThresholdOrdering, h .config (hS rfl)]

end Congr

/-! ## Guards -/

/-- The keys of the guards of version and roles. -/
def isGuardKey : StorageKey → Bool
  | .storageVersion | .admin | .adminRenounced | .operator => true
  | _ => false

theorem guards_calls (k : StorageKey) (hk : isGuardKey k = true) : k ∈ callKeys := by
  cases k <;> first | rfl | cases hk

theorem guards_of_calls {S : Set StorageKey} (hS : callKeys ⊆ S) (k : StorageKey)
    (hk : isGuardKey k = true) : k ∈ S :=
  hS (guards_calls k hk)

theorem guards_shared (k : StorageKey) (hk : isGuardKey k = true) : k ∈ sharedKeys :=
  calls_shared (guards_calls k hk)

section Guards

variable {rel : ContractEnv → ContractEnv → Prop} {S : Set StorageKey}
  (hS : ∀ k, isGuardKey k = true → k ∈ S) (hr : Agrees rel S)

include hr

theorem keeps_requireNotPaused (hpaused : .paused ∈ S) :
    Keeps rel (Contract.reads requireNotPaused) :=
  .reads hr fun s s' h => by
    have hsame : isPaused s = isPaused s' := by simp only [isPaused, h .paused hpaused]
    simp only [requireNotPaused, hsame]

include hS

theorem keeps_checkVersion : Keeps rel (Contract.reads checkVersion) :=
  .reads hr fun _ _ h => by simp only [checkVersion, h .storageVersion (hS _ rfl)]

theorem keeps_requireAdmin (caller : Address) : Keeps rel (requireAdmin caller) :=
  .bind (.requireAuth _) fun _ => .bind (.has hr (hS _ rfl)) fun _ => .bind (.failIf _ _) fun _ =>
    .bind (.getOr hr (hS _ rfl) _) fun _ => .failIf _ _

theorem keeps_requireOperator (caller : Address) : Keeps rel (requireOperator caller) :=
  .bind (.requireAuth _) fun _ => .bind (.getOr hr (hS _ rfl) _) fun _ => .failIf _ _

section Pause

variable {W : Set StorageKey} (hw : Allows rel W) (hpaused : .paused ∈ W) (hinfo : .pauseInfo ∈ W)

include hw hpaused hinfo

/-- The pause switch writes the pause flag and does not read it. -/
theorem keeps_pause (caller : Address) (reason : List UInt8) : Keeps rel (pause caller reason) :=
  .bind (keeps_checkVersion hS hr) fun _ => .bind (keeps_requireAdmin hS hr _) fun _ =>
    .bind (.failIf _ _) fun _ => .bind .timestamp fun _ => .bind (.set hw hpaused _) fun _ =>
      .bind (.set hw hinfo _) fun _ => .publish hw _

theorem keeps_unpause (caller : Address) : Keeps rel (unpause caller) :=
  .bind (keeps_checkVersion hS hr) fun _ => .bind (keeps_requireAdmin hS hr _) fun _ =>
    .bind (.set hw hpaused _) fun _ => .bind (.remove hw hinfo) fun _ => .publish hw _

end Pause

end Guards

section Guards

variable {rel : ContractEnv → ContractEnv → Prop} {S : Set StorageKey} (hS : callKeys ⊆ S)
  (hr : Agrees rel S)

include hS hr

theorem keeps_requireNotFrozen : Keeps rel (Contract.reads requireNotFrozen) :=
  .reads hr fun _ _ => requireNotFrozen_congr hS

theorem keeps_requireNewAdminDistinct (caller new_admin : Address) :
    Keeps rel (requireNewAdminDistinct caller new_admin) :=
  .bind (.getOr hr (hS rfl) _) fun _ => .failIf _ _

end Guards

/-! ## Entry points -/

/-- The writes of `initialize`. -/
def initializeWrites (admin operator : Address) : Contract Unit := do
  Contract.set .admin admin
  Contract.set .operator operator
  Contract.set .paused false
  Contract.set .stats SLAStats.zero
  Contract.set .severityCalcCounts 0
  Contract.set .severityViolCounts 0
  Contract.set .lastCalculationTs 0
  Contract.set .lastViolationTs 0
  Contract.set .histHead 0
  Contract.set .histTail 0
  Contract.set .historyLen 0
  Contract.set .config defaultConfigs
  Contract.set .configCount defaultConfigs.len
  Contract.set .customConfig OrdMap.empty
  Contract.set .storageVersion storageVersion

section Calls

variable {rel : ContractEnv → ContractEnv → Prop} {S : Set StorageKey} (hS : callKeys ⊆ S)
  (hr : Agrees rel S) (hw : Allows rel S)

include hS hr hw

omit hw in
/-- Most entry points check the version and the freeze first. -/
theorem keeps_thawed {m : Contract Unit} (hm : Keeps rel m) :
    Keeps rel (do Contract.reads checkVersion; Contract.reads requireNotFrozen; m) :=
  .bind (keeps_checkVersion (guards_of_calls hS) hr) fun _ =>
    .bind (keeps_requireNotFrozen hS hr) fun _ => hm

omit hw in
/-- The others check the version and the admin first. -/
theorem keeps_byAdmin (caller : Address) {m : Contract Unit} (hm : Keeps rel m) :
    Keeps rel (do Contract.reads checkVersion; requireAdmin caller; m) :=
  .bind (keeps_checkVersion (guards_of_calls hS) hr) fun _ =>
    .bind (keeps_requireAdmin (guards_of_calls hS) hr _) fun _ => hm

omit hw in
theorem keeps_thawedByAdmin (caller : Address) {m : Contract Unit} (hm : Keeps rel m) :
    Keeps rel (do
      Contract.reads checkVersion; Contract.reads requireNotFrozen; requireAdmin caller; m) :=
  keeps_thawed hS hr <| .bind (keeps_requireAdmin (guards_of_calls hS) hr _) fun _ => hm

theorem keeps_requireProposalValid (role : Role) (expiry_event : Address → Event) :
    Keeps rel (requireProposalValid role expiry_event) :=
  .bind (.getOr hr (hS rfl) _) fun _ => .bind .timestamp fun _ => .ite _ (.pure ()) <|
    .bind (.get hr (hS rfl)) fun _ => .bind (.whenSome _ fun _ => .publish hw _) fun _ =>
      .bind (.remove hw (hS rfl)) fun _ => .bind (.remove hw (hS rfl)) fun _ => .fail _

omit hr in
theorem keeps_clearPending (role : Role) {m : Contract Unit} (hm : Keeps rel m) :
    Keeps rel (do Contract.remove (.pending role); Contract.remove (.pendingTs role); m) :=
  .bind (.remove hw (hS rfl)) fun _ => .bind (.remove hw (hS rfl)) fun _ => hm

theorem keeps_dropPendingOperator (caller : Address) : Keeps rel (dropPendingOperator caller) :=
  .bind (.has hr (hS rfl)) fun _ => .ite _ (keeps_clearPending hS hw _ (.publish hw _)) (.pure ())

theorem keeps_recordConfig {m : Contract Unit} (hm : Keeps rel m) :
    Keeps rel (do recordConfigUpdate; recordConfigRegistry; m) :=
  .bind (.bind .sequence fun _ => .set hw (hS rfl) _) fun _ =>
    .bind (.bind (.reads hr fun _ _ => computeConfigVersionHash_congr hS) fun _ =>
      .bind (.reads hr fun _ _ => buildConfigSnapshot_congr hS) fun _ =>
        .bind (.getD hr (hS rfl) _) fun _ => .set hw (hS rfl) _) fun _ => hm

theorem keeps_setOperator (caller new_operator : Address) :
    Keeps rel (setOperator caller new_operator) :=
  keeps_thawedByAdmin hS hr _ <| .bind (keeps_dropPendingOperator hS hr hw _) fun _ =>
    .bind (.set hw (hS rfl) _) fun _ => .publish hw _

theorem keeps_proposeAdmin (caller new_admin : Address) :
    Keeps rel (proposeAdmin caller new_admin) :=
  keeps_thawedByAdmin hS hr _ <| .bind (keeps_requireNewAdminDistinct hS hr _ _) fun _ =>
    .bind (.get hr (hS rfl)) fun _ => .bind (.set hw (hS rfl) _) fun _ => .bind .timestamp fun _ =>
      .bind (.set hw (hS rfl) _) fun _ => .bind (.whenSome _ fun _ => .publish hw _) fun _ =>
        .publish hw _

theorem keeps_acceptAdmin (caller : Address) : Keeps rel (acceptAdmin caller) :=
  keeps_thawed hS hr <| .bind (.requireAuth _) fun _ => .bind (.getOr hr (hS rfl) _) fun _ =>
    .bind (keeps_requireProposalValid hS hr hw _ _) fun _ => .bind (.failIf _ _) fun _ =>
      .bind (.set hw (hS rfl) _) fun _ => keeps_clearPending hS hw _ (.publish hw _)

theorem keeps_cancelAdminProposal (caller : Address) : Keeps rel (cancelAdminProposal caller) :=
  keeps_thawedByAdmin hS hr _ <| .bind (.has hr (hS rfl)) fun _ => .bind (.failIf _ _) fun _ =>
    keeps_clearPending hS hw _ (.publish hw _)

theorem keeps_proposeOperator (caller new_operator : Address) :
    Keeps rel (proposeOperator caller new_operator) :=
  keeps_thawedByAdmin hS hr _ <| .bind (.get hr (hS rfl)) fun _ =>
    .bind (.set hw (hS rfl) _) fun _ => .bind .timestamp fun _ =>
      .bind (.set hw (hS rfl) _) fun _ => .bind (.whenSome _ fun _ => .publish hw _) fun _ =>
        .publish hw _

theorem keeps_acceptOperator (caller : Address) : Keeps rel (acceptOperator caller) :=
  keeps_thawed hS hr <| .bind (.requireAuth _) fun _ => .bind (.getOr hr (hS rfl) _) fun _ =>
    .bind (keeps_requireProposalValid hS hr hw _ _) fun _ => .bind (.failIf _ _) fun _ =>
      .bind (.set hw (hS rfl) _) fun _ => keeps_clearPending hS hw _ (.publish hw _)

theorem keeps_cancelOperatorProposal (caller : Address) :
    Keeps rel (cancelOperatorProposal caller) :=
  keeps_thawedByAdmin hS hr _ <| .bind (.has hr (hS rfl)) fun _ => .bind (.failIf _ _) fun _ =>
    keeps_clearPending hS hw _ (.publish hw _)

theorem keeps_renounceAdmin (caller : Address) : Keeps rel (renounceAdmin caller) :=
  keeps_thawedByAdmin hS hr _ <| .bind (.set hw (hS rfl) _) fun _ =>
    .bind (.remove hw (hS rfl)) fun _ => keeps_clearPending hS hw _ <|
      .bind (keeps_dropPendingOperator hS hr hw _) fun _ => .publish hw _

theorem keeps_freezeConfig (caller : Address) : Keeps rel (freezeConfig caller) :=
  keeps_byAdmin hS hr _ <|
    .bind (.bind (.ask hr fun _ _ => isConfigFrozen_congr hS) fun _ => .ite _ (.pure _) <|
      .bind (.set hw (hS rfl) _) fun _ => .pure _) fun _ => .ite _ (.publish hw _) (.pure _)

theorem keeps_unfreezeConfig (caller : Address) : Keeps rel (unfreezeConfig caller) :=
  keeps_byAdmin hS hr _ <|
    .bind (.bind (.ask hr fun _ _ => isConfigFrozen_congr hS) fun _ =>
      .ite _ (.bind (.set hw (hS rfl) _) fun _ => .pure _) (.pure _)) fun _ =>
        .ite _ (.publish hw _) (.pure _)

theorem keeps_setConfig (caller : Address) (severity : Symbol) (threshold : Nat)
    (penalty reward : Int) : Keeps rel (setConfig caller severity threshold penalty reward) :=
  keeps_byAdmin hS hr _ <|
    .bind (keeps_requireNotFrozen hS hr) fun _ => .bind (.reads hr fun _ _ _ => rfl) fun _ =>
      .bind (.reads hr fun _ _ h => penaltyOrdering_congr hS h _ _) fun _ =>
        .bind (.reads hr fun _ _ h => thresholdOrdering_congr hS h _ _) fun _ =>
          .bind (.getOr hr (hS rfl) _) fun _ => .bind (.set hw (hS rfl) _) fun _ =>
            .bind (.set hw (hS rfl) _) fun _ => keeps_recordConfig hS hr hw (.publish hw _)

theorem keeps_setCustomSeverity (caller : Address) (severity : Symbol) (threshold : Nat)
    (penalty reward : Int) :
    Keeps rel (setCustomSeverity caller severity threshold penalty reward) :=
  keeps_byAdmin hS hr _ <|
    .bind (keeps_requireNotFrozen hS hr) fun _ => .bind (.failIf _ _) fun _ =>
      .bind (.reads hr fun _ _ _ => rfl) fun _ => .bind (.getD hr (hS rfl) _) fun _ =>
        .bind (.set hw (hS rfl) _) fun _ => keeps_recordConfig hS hr hw (.publish hw _)

theorem keeps_removeCustomSeverity (caller : Address) (severity : Symbol) :
    Keeps rel (removeCustomSeverity caller severity) :=
  keeps_byAdmin hS hr _ <|
    .bind (keeps_requireNotFrozen hS hr) fun _ => .bind (.getD hr (hS rfl) _) fun _ =>
      .bind (.failIf _ _) fun _ => .bind (.set hw (hS rfl) _) fun _ => .publish hw _

/-! ## Initialization and migration -/

omit hw in
/-- `initialize` writes the counters of the history too, and reads the admin only. -/
theorem keeps_initializeContract (hall : Allows rel Set.univ) (admin operator : Address) :
    Keeps rel (initializeContract admin operator) := by
  have hset : ∀ (k : StorageKey) (v : k.Val) {m : Contract Unit}, Keeps rel m →
      Keeps rel (do Contract.set k v; m) := fun _ _ _ hm =>
    .bind (.set hall trivial _) fun _ => hm
  have hwrites : Keeps rel (initializeWrites admin operator) := by
    iterate 14 apply hset
    exact .set hall trivial _
  exact .bind (.has hr (hS rfl)) fun _ => .bind (.failIf _ _) fun _ =>
    .bind (.requireAuth _) fun _ => .ite _ (.bind (.requireAuth _) fun _ => hwrites) hwrites

end Calls

/-! ## Statistics and telemetry -/

section Counters

variable {rel : ContractEnv → ContractEnv → Prop} {S : Set StorageKey}
  (hS : ∀ k, k = .stats ∨ isTelemetryKey k = true → k ∈ S) (hr : Agrees rel S)
  (hw : Allows rel S)

include hS hr hw

theorem keeps_recordCustomSeverityTelemetry (met : Bool) :
    Keeps rel (recordCustomSeverityTelemetry met) := by
  have hk := hS .customTelemetry (.inr rfl)
  exact .bind (.getD hr hk _) fun _ => .bind .timestamp fun _ => .set hw hk _

theorem keeps_recordCanonicalTelemetry (index : Nat) (met : Bool) :
    Keeps rel (recordCanonicalTelemetry index met) := by
  have hcalc := hS .severityCalcCounts (.inr rfl)
  have hviol := hS .severityViolCounts (.inr rfl)
  have hcalcTs := hS .lastCalculationTs (.inr rfl)
  have hviolTs := hS .lastViolationTs (.inr rfl)
  exact .bind (.getD hr hcalc _) fun _ => .bind (.getD hr hviol _) fun _ =>
    .bind (.getD hr hcalcTs _) fun _ => .bind (.getD hr hviolTs _) fun _ =>
      .bind .timestamp fun _ => .bind (.set hw hcalc _) fun _ => .bind (.set hw hviol _) fun _ =>
        .bind (.set hw hcalcTs _) fun _ => .set hw hviolTs _

theorem keeps_recordSeverityTelemetry (severity : Symbol) (met : Bool) :
    Keeps rel (recordSeverityTelemetry severity met) := by
  unfold recordSeverityTelemetry
  cases canonicalSeverityIndex severity with
  | some index => exact keeps_recordCanonicalTelemetry hS hr hw index met
  | none => exact keeps_recordCustomSeverityTelemetry hS hr hw met

omit hS hr in
theorem keeps_incrementCounter (counter : Symbol) (value : Nat) :
    Keeps rel (incrementCounter counter value) := by
  unfold incrementCounter
  cases checkedAdd 64 value 1 with
  | some v => exact .pure v
  | none => exact .bind (.publish hw _) fun _ => .pure _

omit hS hr in
theorem keeps_incrementTotal (counter : Symbol) (value amount : Int) :
    Keeps rel (incrementTotal counter value amount) := by
  unfold incrementTotal
  cases checked 128 (value + amount) with
  | some v => exact .pure v
  | none => exact .bind (.publish hw _) fun _ => .pure _

theorem keeps_incrementStats (met : Bool) (reward penalty : Int) :
    Keeps rel (incrementStats met reward penalty) := by
  have hk := hS .stats (.inl rfl)
  exact .bind (.getD hr hk _) fun _ => .bind (keeps_incrementCounter hw _ _) fun _ =>
    .ite _ (.bind (keeps_incrementTotal hw _ _ _) fun _ => .set hw hk _) <|
      .bind (keeps_incrementCounter hw _ _) fun _ =>
        .bind (keeps_incrementTotal hw _ _ _) fun _ => .set hw hk _

theorem keeps_recordStats (result : SLAResult) : Keeps rel (recordStats result) :=
  .ite _ (keeps_incrementStats hS hr hw _ _ _) (keeps_incrementStats hS hr hw _ _ _)

end Counters

theorem counters_shared (k : StorageKey) (hk : k = .stats ∨ isTelemetryKey k = true) :
    k ∈ sharedKeys := by
  rcases hk with rfl | hk
  · rfl
  · cases k <;> first | rfl | cases hk

/-! ## The history operations -/

namespace History

section Keeps

variable {rel : ContractEnv → ContractEnv → Prop} {S : Set StorageKey}
  (hS : ∀ k, isHistoryKey k = true → k ∈ S) (hr : Agrees rel S) (hw : Allows rel S)

include hS

theorem readAllEntries_congr {s s' : Storage} (h : Store.Agree S s s') :
    readAllEntries s = readAllEntries s' := by
  have hentry : readEntry s = readEntry s' := by
    funext i
    exact h _ (hS (.histEntry i) rfl)
  simp only [readAllEntries, readRange, len, head, tail, hentry, h _ (hS .histHead rfl),
    h _ (hS .histTail rfl)]

include hr

theorem keeps_head : Keeps rel (Contract.ask head) :=
  .ask hr fun _ _ h => by simp only [head, h _ (hS .histHead rfl)]

theorem keeps_tail : Keeps rel (Contract.ask tail) :=
  .ask hr fun _ _ h => by simp only [tail, h _ (hS .histTail rfl)]

theorem keeps_indices (outage_id : Symbol) :
    Keeps rel (Contract.ask (entryIndicesForOutage · outage_id)) :=
  .ask hr fun _ _ h => by simp only [entryIndicesForOutage, h _ (hS (.histIndex _) rfl)]

include hw

theorem keeps_dropOldest (i : Nat) : Keeps rel (dropOldest i) :=
  .bind (.get hr (hS _ rfl)) fun _ => .bind (.remove hw (hS _ rfl)) fun _ =>
    .whenSome _ fun _ => .bind (keeps_indices hS hr _) fun _ => .set hw (hS _ rfl) _

theorem keeps_appendEntry (entry : SLAResult) (limit : Nat) (indices : List Nat) :
    Keeps rel (appendEntry entry limit indices) :=
  .bind (keeps_head hS hr) fun _ => .bind (keeps_tail hS hr) fun _ =>
    .bind (.set hw (hS _ rfl) _) fun _ => .bind (.set hw (hS _ rfl) _) fun _ =>
      .bind (.set hw (hS _ rfl) _) fun _ => .ite _
        (.bind (keeps_dropOldest hS hr hw _) fun _ => .bind (.set hw (hS _ rfl) _) fun _ =>
          .set hw (hS _ rfl) _)
        (.set hw (hS _ rfl) _)

theorem keeps_pruneOldest (keep_count : Nat) : Keeps rel (pruneOldest keep_count) := by
  have hdrop : ∀ outages i, Keeps rel (dropEntry outages i) := fun _ _ =>
    .bind (.get hr (hS _ rfl)) fun _ => .bind (.remove hw (hS _ rfl)) fun _ => .pure _
  have hkeep : ∀ kept outage, Keeps rel (keepIndicesFrom kept outage) := fun _ _ =>
    .bind (keeps_indices hS hr _) fun _ => .set hw (hS _ rfl) _
  exact .bind (keeps_head hS hr) fun _ => .bind (keeps_tail hS hr) fun _ => .ite _ (.pure _) <|
    .bind (.foldlM hdrop _ _) fun _ => .bind (.forM (hkeep _) _) fun _ =>
      .bind (.set hw (hS _ rfl) _) fun _ => .bind (.set hw (hS _ rfl) _) fun _ => .pure _

theorem keeps_rebuildHistory (entries : List SLAResult) : Keeps rel (rebuildHistory entries) := by
  have hclear : ∀ outages i, Keeps rel (clearEntry outages i) := fun _ _ =>
    .bind (.get hr (hS _ rfl)) fun _ =>
      .bind (.whenSome _ fun _ => .remove hw (hS _ rfl)) fun _ => .pure _
  have hplace : ∀ acc entry, Keeps rel (placeEntry acc entry) := fun _ _ =>
    .bind (.set hw (hS _ rfl) _) fun _ => .pure _
  exact .bind (keeps_head hS hr) fun _ => .bind (keeps_tail hS hr) fun _ =>
    .bind (.foldlM hclear _ _) fun _ => .bind (.forM (fun _ => .remove hw (hS _ rfl)) _) fun _ =>
      .bind (.foldlM hplace _ _) fun _ => .bind (.forM (fun _ => .set hw (hS _ rfl) _) _) fun _ =>
        .bind (.set hw (hS _ rfl) _) fun _ => .bind (.set hw (hS _ rfl) _) fun _ =>
          .set hw (hS _ rfl) _

end Keeps

end History

section Prunes

variable {rel : ContractEnv → ContractEnv → Prop} {S : Set StorageKey}
  (hG : ∀ k, isGuardKey k = true → k ∈ S) (hH : ∀ k, History.isHistoryKey k = true → k ∈ S)
  (hr : Agrees rel S) (hw : Allows rel S)

include hG hH hr hw

theorem keeps_pruneHistory (caller : Address) (keep_latest : Nat) :
    Keeps rel (pruneHistory caller keep_latest) :=
  .bind (keeps_checkVersion hG hr) fun _ => .bind (keeps_requireAdmin hG hr _) fun _ =>
    .bind (History.keeps_pruneOldest hH hr hw _) fun _ => .publish hw _

theorem keeps_pruneHistoryByAge (caller : Address) (min_age : Nat) :
    Keeps rel (pruneHistoryByAge caller min_age) :=
  .bind (keeps_checkVersion hG hr) fun _ => .bind (keeps_requireAdmin hG hr _) fun _ =>
    .bind .timestamp fun _ => .bind (.failIf _ _) fun _ =>
      .bind (.ask hr fun _ _ => History.readAllEntries_congr hH) fun _ =>
        .ite _ (.bind (History.keeps_rebuildHistory hH hr hw _) fun _ => .publish hw _)
          (.publish hw _)

end Prunes

/-- `migrate` does nothing where an admin stands on the current version. -/
theorem migrate_lockstep {rel : ContractEnv → ContractEnv → Prop} {S : Set StorageKey}
    (hS : callKeys ⊆ S) (hr : Agrees rel S)
    (hcurrent : ∀ env env', rel env env' → Current env.storage) (caller : Address) :
    Keeps rel (migrate caller) := by
  intro f
  apply Lockstep.bind (Keeps.requireAuth caller f)
  intro _
  apply Lockstep.bind (Lockstep.getOr fun env env' h => hr env env' h .admin (hS rfl))
  intro admin
  apply Lockstep.bind (Keeps.failIf _ _ f)
  intro _
  refine Lockstep.bind (Lockstep.getD fun env env' h => hr env env' h.1 .storageVersion (hS rfl))
    fun stored => ?_
  rintro env env' ⟨⟨hrel, hadmin⟩, rfl⟩
  have hversion := hcurrent env env' hrel admin hadmin
  simp only [hversion, Option.getD_some, if_true]
  exact .returned hrel

end ApexChainx
