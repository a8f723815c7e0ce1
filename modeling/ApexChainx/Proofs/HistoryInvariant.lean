import ApexChainx.Proofs.Runs

/-!
# The representation invariant of the history

The four structures of the sharded history (counters, entries, index lists, cached length) stay
consistent over every run in which `initialize` succeeds once, as long as the counters do not
wrap (`history_representation`). Over arbitrary runs the weaker `Sound` survives
(`sound_after`): what is retained of an outage is the end of its index list.
-/

namespace ApexChainx

open Host Misc

/-- The history is exact, and its cached length and the retention limit bound it. -/
structure HistoryExact (s : Storage) : Prop where
  exact : (History.shards s).Exact SLAResult.outage_id
  historyLen : s .historyLen = some (History.len s)
  fits : History.len s ≤ retentionLimit s
  limit : retentionLimit s ≤ maxHistorySize

section Steps

variable {f : Frame Address} {s s' : Storage} {c : Call} {r : Reply} {evs : List Event}

/-- The calls that work on the history. -/
def Call.onHistory : Call → Bool
  | .initializeContract _ _ | .calculateSla _ _ _ _ | .pruneHistory _ _ => true
  | .pruneHistoryByAge _ _ | .setRetentionLimit _ _ => true
  | _ => false

theorem Call.touches_history {c : Call} (hc : c.onHistory = false) {k : StorageKey}
    (hk : History.isHistoryKey k = true ∨ k = .retentionLimit) : c.touches k = false := by
  cases k <;> simp [History.isHistoryKey] at hk <;> cases c <;>
    simp_all [Call.onHistory, Call.touches]

/-- The other calls keep the log. -/
theorem Effect.shards_eq (h : Effect f s c r s' evs) (hc : c.onHistory = false) :
    History.shards s' = History.shards s :=
  History.shards_congr fun _ hk => h.frame (Call.touches_history hc (.inl hk.1))

/-- All the retained slots are read. -/
theorem length_readAllEntries (hs : (History.shards s).Sound SLAResult.outage_id 32) :
    (History.readAllEntries s).length = History.len s := by
  rw [History.readAllEntries_eq_items hs.bounded]
  exact ShardedLog.length_items hs

theorem retentionLimit_of_key (h : s' .retentionLimit = s .retentionLimit) :
    retentionLimit s' = retentionLimit s := by
  simp only [retentionLimit, h]

theorem Recorded.retentionLimit_eq {result : SLAResult} (h : Recorded s result s') :
    retentionLimit s' = retentionLimit s :=
  retentionLimit_of_key (h.other .retentionLimit rfl rfl (by simp))

theorem HistoryExact.congr (hi : HistoryExact s) (hlog : History.shards s' = History.shards s)
    (hlen : s' .historyLen = s .historyLen) (hlimit : s' .retentionLimit = s .retentionLimit) :
    HistoryExact s' := by
  have hl : History.len s' = History.len s := congrArg ShardedLog.len hlog
  have hr := retentionLimit_of_key hlimit
  exact ⟨hlog ▸ hi.exact, by rw [hlen, hl, hi.historyLen], by rw [hl, hr]; exact hi.fits,
    by rw [hr]; exact hi.limit⟩

/-- The counters of the history restart at zero. -/
theorem len_initialized (s : Storage) (admin operator : Address) :
    History.len (initializedStorage s admin operator) = 0 := by
  simp [History.len, History.head, History.tail, initializedStorage]

/-- The history of a fresh contract is empty. -/
theorem shards_initialized (admin operator : Address) :
    History.shards (initializedStorage Store.empty admin operator) =
      ⟨0, 0, fun _ => none, fun _ => []⟩ :=
  ShardedLog.ext (by simp [History.head, initializedStorage])
    (by simp [History.tail, initializedStorage])
    (fun _ => by simp [History.readEntry, initializedStorage])
    (fun _ => by simp [History.entryIndicesForOutage, initializedStorage])

theorem historyExact_initialized (admin operator : Address) :
    HistoryExact (initializedStorage Store.empty admin operator) := by
  have hlog := shards_initialized admin operator
  have hlen := len_initialized Store.empty admin operator
  refine ⟨?_, by rw [hlen]; simp [initializedStorage], by omega, ?_⟩
  · rw [hlog]
    exact ShardedLog.exact_empty
  · simp [retentionLimit, initializedStorage]

theorem Recorded.historyExact {result : SLAResult} (hr : Recorded s result s')
    (hi : HistoryExact s) (hroom : History.tail s + 1 < 2 ^ 32) : HistoryExact s' := by
  have hlimit := hr.retentionLimit_eq
  refine ⟨?_, hr.historyLen, ?_, by rw [hlimit]; exact hi.limit⟩
  · rw [hr.log]
    exact hi.exact.record _ _ hroom
  · rw [hlimit, ← History.shards_len, hr.log]
    exact (ShardedLog.len_record_le_iff (w := 32) (by simp; omega) _ _).mpr (.inl hi.fits)

theorem Recorded.tail_le {result : SLAResult} (hr : Recorded s result s') :
    History.tail s' ≤ History.tail s + 1 := by
  rw [← History.shards_tail, hr.log]
  exact ShardedLog.tail_record_le _ _

/-- Trimming the history to `keep` entries keeps it exact, for any limit that bounds what is
left. -/
theorem HistoryExact.dropTo (hi : HistoryExact s) {keep : Nat}
    (hlog : History.shards s' = (History.shards s).dropTo SLAResult.outage_id keep)
    (hlen : s' .historyLen = if keep ≥ History.len s then s .historyLen else some keep) :
    (History.shards s').Exact SLAResult.outage_id ∧
      s' .historyLen = some (History.len s') ∧ History.len s' = min (History.len s) keep := by
  have hl : History.len s' = min (History.len s) keep := by
    rw [← History.shards_len, hlog]
    exact ShardedLog.len_dropTo keep
  refine ⟨?_, ?_, hl⟩
  · rw [hlog]
    exact hi.exact.dropTo keep
  · rw [hlen, hl]
    split
    · rw [hi.historyLen, Nat.min_eq_left (by assumption)]
    · rw [Nat.min_eq_right (by omega)]

/-- Every call but `initialize` keeps the history exact while the tail has room. -/
theorem Effect.historyExact (h : Effect f s c r s' evs) (hi : HistoryExact s)
    (hc : c.isInitialize = false) (hroom : History.tail s + (decisions evs).length < 2 ^ 32) :
    HistoryExact s' ∧ History.tail s' ≤ History.tail s + (decisions evs).length := by
  by_cases hon : c.onHistory = false
  · have hlog := h.shards_eq hon
    refine ⟨hi.congr hlog (h.frame (Call.touches_history hon (.inl rfl)))
      (h.frame (Call.touches_history hon (.inr rfl))), ?_⟩
    have htail : History.tail s' = History.tail s := congrArg ShardedLog.tail hlog
    omega
  · cases h <;> simp [Call.onHistory] at hon
    case initialized => simp [Call.isInitialize] at hc
    case replayed => exact ⟨hi, by omega⟩
    case recorded change =>
      rw [decisions_recordedEvents] at hroom ⊢
      exact ⟨change.historyExact hi hroom, change.tail_le⟩
    case keptAll => exact ⟨hi, by omega⟩
    case pruned keep _ change hlen =>
      obtain ⟨hexact, hlen', hmin⟩ := hi.dropTo change.log hlen
      have hlimit := retentionLimit_of_key (change.other .retentionLimit rfl)
      have hfits := hi.fits
      refine ⟨⟨hexact, hlen', by omega, by rw [hlimit]; exact hi.limit⟩, ?_⟩
      have htail : History.tail s' = History.tail s := by
        rw [← History.shards_tail, change.log, ShardedLog.tail_dropTo, History.shards_tail]
      omega
    case prunedByAge min_age _ _ some_old fits change hlen =>
      have hlimit := retentionLimit_of_key (change.other .retentionLimit rfl)
      have hl : History.len s' = (recent f s min_age).length := by
        rw [← History.shards_len, change.log, ShardedLog.len_rebuild]
      have hread := length_readAllEntries (hi.exact.sound (w := 32) (by simp; omega))
      have hfits := hi.fits
      have hordered := hi.exact.ordered
      refine ⟨⟨?_, by rw [hlen, hl], by omega, by rw [hlimit]; exact hi.limit⟩, ?_⟩
      · rw [change.log]
        exact hi.exact.rebuild _
      · have htail : History.tail s' = History.head s + (recent f s min_age).length := by
          rw [← History.shards_tail, change.log]
          rfl
        simp only [History.shards_head, History.shards_tail, History.len] at hordered hread
        omega
    case retentionSet limit _ _ inRange change hlen =>
      obtain ⟨hexact, hlen', hmin⟩ := hi.dropTo change.log hlen
      have hlimit : retentionLimit s' = limit := by
        simp [retentionLimit, change.other .retentionLimit rfl]
      refine ⟨⟨hexact, hlen', by omega, by rw [hlimit]; exact inRange.2⟩, ?_⟩
      have htail : History.tail s' = History.tail s := by
        rw [← History.shards_tail, change.log, ShardedLog.tail_dropTo, History.shards_tail]
      omega

/-- Every call keeps what is retained of an outage at the end of its index list. -/
theorem Effect.sound (h : Effect f s c r s' evs)
    (hs : (History.shards s).Sound SLAResult.outage_id 32) :
    (History.shards s').Sound SLAResult.outage_id 32 := by
  by_cases hon : c.onHistory = false
  · rw [h.shards_eq hon]
    exact hs
  · cases h <;> simp [Call.onHistory] at hon
    case initialized admin operator _ _ _ =>
      -- the slots may still hold entries
      have hwindow : (History.shards (initializedStorage s admin operator)).window = [] := by
        rw [ShardedLog.window, History.shards_len, len_initialized]
        rfl
      exact ShardedLog.Sound.of_window_nil (by simp [History.tail, initializedStorage]) hwindow
    case replayed => exact hs
    case recorded change =>
      rw [change.log]
      exact hs.record _ _
    case pruned change _ =>
      rw [change.log]
      exact hs.dropTo _
    case keptAll => exact hs
    case prunedByAge _ _ some_old fits change _ =>
      have hlen := length_readAllEntries hs
      rw [change.log]
      refine hs.rebuild ?_ ?_
      · rw [History.shards_len]
        omega
      · rw [History.shards_head]
        omega
    case retentionSet change _ =>
      rw [change.log]
      exact hs.dropTo _

end Steps

/-! ## Whole runs -/

theorem historyExact_after {txs : List ContractTx} (hone : initializations txs = 1)
    (hfew : (recorded txs).length < 2 ^ 32) :
    HistoryExact (after txs) ∧ History.tail (after txs) ≤ (recorded txs).length := by
  refine committed_induction
    (P := fun evs s => (decisions evs).length < 2 ^ 32 →
      HistoryExact s ∧ History.tail s ≤ (decisions evs).length) ?_ ?_ txs hone hfew
  · intro admin operator _
    exact ⟨historyExact_initialized admin operator,
      Nat.le_of_eq (congrArg ShardedLog.tail (shards_initialized admin operator))⟩
  · intro evs s f c r s' new ih he hc hlt
    rw [decisions_append, List.length_append] at hlt ⊢
    obtain ⟨hexact, htail⟩ := ih (by omega)
    obtain ⟨hexact', htail'⟩ := he.historyExact hexact hc (by omega)
    exact ⟨hexact', by omega⟩

/-- A storage on the current version whose log is sound: what every call keeps. -/
structure Regular (s : Storage) : Prop where
  current : Current s
  sound : (History.shards s).Sound SLAResult.outage_id 32

theorem regular_empty : Regular Store.empty := by
  refine ⟨current_empty, ShardedLog.Sound.of_window_nil ?_ ?_⟩
  · simp [History.tail]
  · simp [ShardedLog.window, ShardedLog.len, History.head, History.tail]

theorem Regular.call {s : Storage} (h : Regular s) (tx : ContractTx) :
    Regular (invoke exec tx s).storage := by
  rcases invoke_effect h.current tx with ⟨r, s', evs, he, hi⟩ | ⟨x, hi⟩
  · rw [hi]
    exact ⟨he.current h.current, he.sound h.sound⟩
  · rw [hi]
    exact h

/-- A run from any regular storage ends in one. -/
theorem Regular.along {s : Storage} (h : Regular s) (txs : List ContractTx) :
    Regular (final exec s txs) :=
  invariant_run h (fun _ tx hs => hs.call tx) txs

theorem sound_after (txs : List ContractTx) :
    (History.shards (after txs)).Sound SLAResult.outage_id 32 :=
  (regular_empty.along txs).sound

/-- The representation of the sharded history: the counters, the entries, the index lists and
the cached length describe one window of at most the retention limit. -/
structure HistoryRepresentation (s : Storage) : Prop where
  ordered : History.head s ≤ History.tail s
  present : ∀ i, (s (.histEntry i)).isSome ↔ History.head s ≤ i ∧ i < History.tail s
  increasing : ∀ o, (History.entryIndicesForOutage s o).Pairwise (· < ·)
  indexed : ∀ o i, i ∈ History.entryIndicesForOutage s o ↔
    (History.head s ≤ i ∧ i < History.tail s) ∧
      ∃ entry, s (.histEntry i) = some entry ∧ entry.outage_id = o
  historyLen : s .historyLen = some (History.tail s - History.head s)
  retained : History.tail s - History.head s ≤ retentionLimit s
  limit : retentionLimit s ≤ 1000

theorem HistoryExact.representation {s : Storage} (hi : HistoryExact s) :
    HistoryRepresentation s where
  ordered := hi.exact.ordered
  present := hi.exact.present
  increasing := fun o => by
    have hindex : History.entryIndicesForOutage s o =
        (History.shards s).owned SLAResult.outage_id o := hi.exact.index o
    have hwindow : (History.shards s).window.Pairwise (· < ·) := List.pairwise_lt_range' 1
    rw [hindex]
    exact hwindow.filter _
  indexed := fun o i => by
    have hindex : History.entryIndicesForOutage s o =
        (History.shards s).owned SLAResult.outage_id o := hi.exact.index o
    rw [hindex, ShardedLog.owned, List.mem_filter, ShardedLog.mem_window]
    simp [ShardedLog.owns, History.readEntry, Option.any_eq_true]
  historyLen := hi.historyLen
  retained := hi.fits
  limit := hi.limit

/-- The representation invariant of the history, over every run in which `initialize` succeeds
once and fewer than `2^32` entries are appended. -/
theorem history_representation (txs : List ContractTx) (hone : initializations txs = 1)
    (hfew : (recorded txs).length < 2 ^ 32) : HistoryRepresentation (after txs) :=
  (historyExact_after hone hfew).1.representation

theorem history_representation_oneDecision : HistoryRepresentation (after oneDecision) :=
  history_representation oneDecision (by decide) (by decide)

end ApexChainx
