import ApexChainx.Proofs.HistoryInvariant
import ApexChainx.Proofs.Calculation

/-!
# Long runs under a retention limit of one

With a retention limit of one entry the history holds at most the decision of the last submission.
A submission of another outage, or of another generation of the same outage, is then recorded at
every turn as long as the tail has room. The runs that need very many recorded decisions are
sequences of such turns.
-/

namespace ApexChainx

open Host Misc

/-- `launch`, and a retention limit of one entry. -/
def launchOne : List ContractTx :=
  launch ++ [⟨.setRetentionLimit ⟨1⟩ 1, ⟨[⟨1⟩], 2, 2⟩⟩]

/-- A submission at time 3 that the configuration of `launchOne` decides. -/
structure Turn where
  severity : Symbol
  cfg : SLAConfig
  result : SLAResult
  bound : result.mttr_minutes ≤ maxMttr
  config : loadConfig severity (after launchOne) = .ok cfg
  computed : computeResult result.outage_id result.mttr_minutes cfg (severityConfigHash cfg) 3 =
    .ok result

/-- The transaction of a turn. -/
def Turn.tx (t : Turn) : ContractTx :=
  submission ⟨[⟨2⟩], 3, 3⟩ ⟨2⟩ t.result.outage_id t.severity t.result.mttr_minutes

/-- The state after `n` turns, of which the last left the decision `last`. -/
structure Turned (n : Nat) (last : Option SLAResult) (s : Storage) : Prop where
  exact : HistoryExact s
  tail : History.tail s = n
  items : (History.shards s).items = last.toList
  other : ∀ k, History.isHistoryKey k = false → isTelemetryKey k = false → k ≠ .stats →
    s k = after launchOne k

theorem turned_zero : Turned 0 none (after launchOne) where
  exact :=
    have hexact : HistoryExact (after launchOne) ∧ _ :=
      historyExact_after (by decide) (by decide)
    hexact.1
  tail := by decide
  items := by decide
  other := fun _ _ _ _ => rfl

section Turn

variable {n : Nat} {last : Option SLAResult} {s : Storage}

/-- The guards of a turn pass. -/
theorem Turned.submits (h : Turned n last s) (t : Turn) :
    Submits ⟨[⟨2⟩], 3, 3⟩ s ⟨2⟩ t.result.outage_id t.severity t.result.mttr_minutes t.cfg
      t.result := by
  have hversion : s .storageVersion = some storageVersion :=
    (h.other .storageVersion rfl rfl (by simp)).trans (by rfl)
  have hpaused : s .paused = some false := (h.other .paused rfl rfl (by simp)).trans (by rfl)
  have hoperator : s .operator = some ⟨2⟩ := (h.other .operator rfl rfl (by simp)).trans (by rfl)
  have hloads : loadConfig t.severity s = loadConfig t.severity (after launchOne) := by
    simp only [loadConfig, customConfigs, h.other .config rfl rfl (by simp),
      h.other .customConfig rfl rfl (by simp)]
  exact ⟨⟨hversion, by simp [isPaused, hpaused], by simp, hoperator⟩, t.bound,
    hloads.trans t.config, t.computed⟩

/-- The one retained decision is of another outage, or of another generation. -/
theorem Turned.admits (h : Turned n last s) {outage_id : Symbol} {hash : Nat}
    (hnext : ∀ prev ∈ last, prev.outage_id = outage_id → prev.config_version_hash ≠ hash) :
    Admits s outage_id hash := by
  intro prev hprev
  have hlatest : (History.shards s).latest outage_id = _ := h.exact.exact.latest_eq outage_id
  have hcount : (History.entryIndicesForOutage s outage_id).length = _ :=
    h.exact.exact.length_index outage_id
  rw [ShardedLog.itemsOf, h.items] at hlatest hcount
  have hfound := List.mem_of_getLast? (hlatest.symm.trans hprev)
  obtain ⟨hmem, houtage⟩ := List.mem_filter.mp hfound
  have hone : last.toList.length ≤ 1 := by cases last <;> simp
  refine ⟨hnext prev (Option.mem_toList.mp hmem) (by simpa using houtage), ?_⟩
  rw [hcount]
  exact Nat.lt_of_le_of_lt (List.length_filter_le _ _) (Nat.lt_of_le_of_lt hone (by decide))

/-- The turn is recorded. -/
theorem Turned.records (h : Turned n last s) (t : Turn)
    (hnext : ∀ prev ∈ last, prev.outage_id = t.result.outage_id →
      prev.config_version_hash ≠ severityConfigHash t.cfg) :
    ∃ s', invoke exec t.tx s = ⟨s', recordedEvents ⟨[⟨2⟩], 3, 3⟩ s t.severity t.result,
        .ok (.decision t.result)⟩ ∧
      Records ⟨[⟨2⟩], 3, 3⟩ s t.tx.call (.decision t.result) s'
        (recordedEvents ⟨[⟨2⟩], 3, 3⟩ s t.severity t.result) t.severity t.cfg t.result :=
  (h.submits t).recorded (h.admits hnext)

/-- Its decision replaces the retained one. -/
theorem Turned.succ (h : Turned n last s) (hn : n + 1 < 2 ^ 32) {result : SLAResult}
    {s' : Storage} (change : Recorded s result s') : Turned (n + 1) (some result) s' := by
  have hs : (History.shards s).Sound SLAResult.outage_id 32 := h.exact.exact.sound (by
    rw [History.shards_tail, h.tail]
    omega)
  have hlimit : retentionLimit s = 1 := by
    have hkey : s .retentionLimit = some 1 :=
      (h.other .retentionLimit rfl rfl (by simp)).trans (by rfl)
    simp [retentionLimit, hkey]
  have htail : History.tail s + 1 < 2 ^ 32 := by rw [h.tail]; exact hn
  refine ⟨change.historyExact h.exact htail, ?_, ?_, ?_⟩
  · rw [← History.shards_tail, change.log, ShardedLog.tail_record, History.shards_tail, h.tail]
    exact wrap_of_lt hn
  · have hlen : (History.shards s).len = _ := (ShardedLog.length_items hs).symm
    rw [change.log, ShardedLog.items_record hs h.exact.exact.ordered htail, hlen, hlimit, h.items]
    cases last <;> simp
  · intro k hh ht hk
    rw [change.other k hh ht hk, h.other k hh ht hk]

end Turn

end ApexChainx
