import ApexChainx.Contract.Reads
import ApexChainx.Proofs.Retention

/-!
# A healthy contract

`Healthy` collects what `initialize` establishes and every later call keeps, whoever makes it and
at whatever ledger time: the configuration invariant, a history that can be read and is within the
retention limit, and retained entries that are what their own inputs compute. It is a property of
one storage, so it serves every driver of the contract; in a run it holds from the first
`initialize` on (`fresh_or_healthy`).
-/

namespace ApexChainx

open Host Misc

/-- What holds of the storage once the contract is in service. -/
structure Healthy (s : Storage) : Prop where
  regular : Regular s
  config : ConfigSound s
  custom : CustomSound s
  limit : 1 ≤ retentionLimit s ∧ retentionLimit s ≤ maxHistorySize
  within : WithinLimit s
  genuine : ∀ entry ∈ (History.shards s).items, Genuine entry

section Steps

variable {f : Frame Address} {s s' : Storage} {c : Call} {r : Reply} {evs : List Event}

theorem Effect.limit_inRange (he : Effect f s c r s' evs)
    (h : 1 ≤ retentionLimit s ∧ retentionLimit s ≤ maxHistorySize) :
    1 ≤ retentionLimit s' ∧ retentionLimit s' ≤ maxHistorySize := by
  by_cases htouched : c.touches .retentionLimit = true
  · cases he <;> simp [Call.touches, History.isHistoryKey, isTelemetryKey] at htouched
    case retentionSet limit _ _ inRange change _ =>
      have hlimit : retentionLimit s' = limit := by
        simp [retentionLimit, change.other .retentionLimit rfl]
      omega
  · rwa [retentionLimit_of_key (he.frame (by simpa using htouched))]

/-- A call whose program returns has its effect. -/
theorem effect_of_program {m : Contract Unit} (hexec : exec c = replyUnit m) (hc : Current s)
    (h : ∃ env', m.Returns f ⟨s, [], []⟩ () env') :
    ∃ r s' evs, Effect f s c r s' evs ∧ invoke exec ⟨c, f⟩ s = ⟨s', evs, .ok r⟩ := by
  obtain ⟨env', hm⟩ := h
  have hreturns : (exec c).Returns f ⟨s, [], []⟩ .unit env' :=
    hexec ▸ returns_replyUnit.mpr ⟨rfl, hm⟩
  exact ⟨.unit, _, _, returns_effect hc hreturns, invoke_of_returns hreturns⟩

/-- The decisions of a call are what their inputs compute. -/
theorem Effect.decisions_genuine (he : Effect f s c r s' evs) (hs : ConfigSound s)
    (hcustom : CustomSound s) : ∀ result ∈ decisions evs, Genuine result := by
  intro result hresult
  rcases he.records_or_quiet with ⟨severity, cfg, fresh, hr⟩ | ⟨hquiet, -⟩
  · rw [hr.events, decisions_recordedEvents, List.mem_singleton] at hresult
    subst hresult
    exact hr.genuine (inBounds_of_loadConfig (.inr hs) hcustom hr.config)
  · rw [decisions_of_quiet hquiet] at hresult
    cases hresult

/-- A call keeps some of the retained entries and of the decision it records. -/
theorem Effect.mem_items (he : Effect f s c r s' evs)
    (hs : (History.shards s).Sound SLAResult.outage_id 32) {entry : SLAResult}
    (h : entry ∈ (History.shards s').items) :
    entry ∈ (History.shards s).items ∨ entry ∈ decisions evs :=
  List.mem_append.mp (List.mem_filter.mp ((he.items_suffix hs).subset h)).1

theorem Effect.healthy (he : Effect f s c r s' evs) (h : Healthy s) : Healthy s' where
  regular := ⟨he.current h.regular.current, he.sound h.regular.sound⟩
  config := he.configSound h.config
  custom := he.customSound h.custom
  limit := he.limit_inRange h.limit
  within := he.withinLimit h.regular h.within
  genuine := fun entry hentry => by
    rcases he.mem_items h.regular.sound hentry with hold | hnew
    · exact h.genuine entry hold
    · exact he.decisions_genuine h.config h.custom entry hnew

end Steps

section Reads

variable {s : Storage} (hx : (History.shards s).Exact SLAResult.outage_id) (outage_id : Symbol)

include hx

/-- The index of an exact history finds the entries of an outage. -/
theorem entriesForOutage_eq : History.entriesForOutage s outage_id =
    (History.shards s).itemsOf SLAResult.outage_id outage_id := hx.entries_eq outage_id

theorem latestForOutage_eq : History.latestForOutage s outage_id =
    ((History.shards s).itemsOf SLAResult.outage_id outage_id).getLast? := hx.latest_eq outage_id

theorem length_entryIndicesForOutage : (History.entryIndicesForOutage s outage_id).length =
    ((History.shards s).itemsOf SLAResult.outage_id outage_id).length := hx.length_index outage_id

end Reads

theorem healthy_initialized (admin operator : Address) :
    Healthy (initializedStorage Store.empty admin operator) where
  regular := by
    refine ⟨fun _ _ => by simp [initializedStorage], ?_⟩
    refine (historyExact_initialized admin operator).exact.sound ?_
    simp [shards_initialized]
  config := configSound_initialized Store.empty admin operator
  custom := fun severity cfg hget => by simp [customConfigs, initializedStorage] at hget
  limit := by simp [retentionLimit, initializedStorage, maxHistorySize]
  within := by simp [WithinLimit, len_initialized]
  genuine := fun entry hentry => by
    rw [shards_initialized] at hentry
    simp [ShardedLog.items] at hentry

/-- At every point of a run the deployment is fresh or healthy. -/
theorem fresh_or_healthy (txs : List ContractTx) :
    after txs = Store.empty ∨ Healthy (after txs) := by
  refine after_induction (P := fun _ s => s = Store.empty ∨ Healthy s) (.inl rfl) ?_ ?_ txs
  · intro txs tx r s' evs hP he hi
    rcases hP with hfresh | hs
    · rw [hfresh] at he
      obtain ⟨admin, operator, -, rfl, -⟩ := effect_of_empty he
      exact .inr (healthy_initialized admin operator)
    · exact .inr (he.healthy hs)
  · exact fun _ _ _ hP _ => hP

theorem healthy_of_stored {txs : List ContractTx} {k : StorageKey} {v : k.Val}
    (h : after txs k = some v) : Healthy (after txs) := by
  rcases fresh_or_healthy txs with hfresh | hs
  · rw [hfresh] at h
    cases h
  · exact hs

namespace Healthy

variable {s : Storage}

theorem version (h : Healthy s) : s .storageVersion = some storageVersion := h.config.version

theorem checkVersion_ok (h : Healthy s) : checkVersion s = .ok () := by
  simp [checkVersion, h.version]

theorem ne_empty (h : Healthy s) : s ≠ Store.empty := by
  intro hempty
  have hversion := h.version
  rw [hempty] at hversion
  cases hversion

theorem readAllEntries_eq (h : Healthy s) :
    History.readAllEntries s = (History.shards s).items :=
  History.readAllEntries_eq_items h.regular.sound.bounded

theorem getHistory_ok (h : Healthy s) : getHistory s = .ok (History.readAllEntries s) := by
  simp [getHistory, h.checkVersion_ok]

/-- The history that is read is within the retention limit. -/
theorem length_le_limit (h : Healthy s) :
    (History.readAllEntries s).length ≤ retentionLimit s := by
  rw [length_readAllEntries h.regular.sound]
  exact h.within

theorem length_le (h : Healthy s) : (History.readAllEntries s).length ≤ 1000 :=
  h.length_le_limit.trans h.limit.2

theorem entry_genuine (h : Healthy s) {entry : SLAResult}
    (hentry : entry ∈ History.readAllEntries s) : Genuine entry :=
  h.genuine entry (h.readAllEntries_eq ▸ hentry)

end Healthy

end ApexChainx
