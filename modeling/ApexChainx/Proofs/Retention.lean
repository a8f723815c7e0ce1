import ApexChainx.Proofs.Ledger
import ApexChainx.Proofs.Migration

/-!
# The retention limit

`append_entry` drops one entry at most. So a call that appends ends within the retention limit
exactly when it starts there, or when the `u32` tail wraps (`limitKept_iff`). A fresh deployment
is always within the limit; `migrate` keeps a legacy vector of any length, so from a migrated
storage on everything depends on the first call that appends (`retention_law`).
-/

namespace ApexChainx

open Host Misc

/-- The storages that runs start from: a fresh deployment, or what `migrate` by the admin makes of
a storage of an older version whose history is the given vector. -/
inductive Origin : List SLAResult → Storage → Prop
  | deployed : Origin [] Store.empty
  | migrated {f : Frame Address} {caller : Address} {legacy : List SLAResult} {s : Storage}
      (hl : Legacy s legacy) (admin : s .admin = some caller) (signed : caller ∈ f.auths)
      (old : (s .storageVersion).getD 0 ≤ 2) : Origin legacy (migrateCommits f caller s)

/-- The call stored a decision. -/
def appendsEntry (st : ContractStep) : Bool := (storedResult st).isSome

/-- The call ends with at most as many entries as the limit, the most recent ones of those it
found and of the one it stored. -/
structure LimitKept (st : ContractStep) : Prop where
  within : (History.readAllEntries (st.post exec)).length ≤ retentionLimit (st.post exec)
  newest : History.readAllEntries (st.post exec) <:+
    History.readAllEntries st.pre ++ (storedResult st).toList

/-- The call starts with more entries than the limit, and its append does not wrap the tail. -/
def startsOver (st : ContractStep) : Prop :=
  retentionLimit st.pre < History.len st.pre ∧ History.tail st.pre + 1 < 2 ^ 32

/-- At most as many entries are retained as the limit allows. -/
def WithinLimit (s : Storage) : Prop := History.len s ≤ retentionLimit s

section Steps

variable {f : Frame Address} {s s' : Storage} {c : Call} {r : Reply} {evs : List Event}

/-- A call that stored a decision recorded it. -/
theorem Regular.recorded {tx : ContractTx} (hs : Regular s)
    (h : appendsEntry ⟨s, tx⟩ = true) :
    ∃ result, storedResult ⟨s, tx⟩ = some result ∧
      Recorded s result (Step.post exec ⟨s, tx⟩) := by
  obtain ⟨result, hstored⟩ := Option.isSome_iff_exists.mp h
  rcases invoke_effect hs.current tx with ⟨r, s', evs, he, hi⟩ | ⟨x, hi⟩
  · have hdecisions := storedResult_of_effect he hi
    rw [hstored] at hdecisions
    refine ⟨result, hstored, ?_⟩
    rw [post_of_invoke hi]
    rcases he.records_or_quiet with ⟨severity, cfg, fresh, hr⟩ | ⟨hquiet, -⟩
    · rw [hr.events, decisions_recordedEvents] at hdecisions
      obtain rfl : result = fresh := by simpa using hdecisions
      exact hr.change
    · rw [decisions_of_quiet hquiet] at hdecisions
      cases hdecisions
  · rw [storedResult_of_refused hi] at hstored
    cases hstored

/-- A call that stored a decision retains the most recent entries. -/
theorem Regular.newest {tx : ContractTx} (hs : Regular s) (h : appendsEntry ⟨s, tx⟩ = true) :
    History.readAllEntries (Step.post exec ⟨s, tx⟩) <:+
      History.readAllEntries s ++ (storedResult ⟨s, tx⟩).toList := by
  obtain ⟨result, hstored, change⟩ := hs.recorded h
  have hnext : Regular (Step.post exec ⟨s, tx⟩) := hs.call tx
  rw [hstored, History.readAllEntries_eq_items hnext.sound.bounded,
    History.readAllEntries_eq_items hs.sound.bounded, change.log]
  exact ShardedLog.items_record_suffix hs.sound _ _

/-- A call that stored a decision keeps the limit exactly when it does not start over it. -/
theorem Regular.limitKept_iff {tx : ContractTx} (hs : Regular s)
    (h : appendsEntry ⟨s, tx⟩ = true) : LimitKept ⟨s, tx⟩ ↔ ¬ startsOver ⟨s, tx⟩ := by
  obtain ⟨result, hstored, change⟩ := hs.recorded h
  have hnext : Regular (Step.post exec ⟨s, tx⟩) := hs.call tx
  have hbound : History.tail s < 2 ^ 32 := hs.sound.bounded
  have hlimit := change.retentionLimit_eq
  have hlen : History.len (Step.post exec ⟨s, tx⟩) ≤ retentionLimit s ↔
      History.len s ≤ retentionLimit s ∨ History.tail s + 1 = 2 ^ 32 := by
    rw [← History.shards_len, change.log]
    exact ShardedLog.len_record_le_iff hbound _ _
  constructor
  · rintro ⟨hwithin, -⟩ ⟨hover, hroom⟩
    rw [length_readAllEntries hnext.sound, hlimit, hlen] at hwithin
    simp only at hover hroom
    omega
  · intro hnot
    refine ⟨?_, hs.newest h⟩
    rw [length_readAllEntries hnext.sound, hlimit, hlen]
    simp only [startsOver] at hnot
    omega

/-- No call takes the history over the limit. -/
theorem Effect.withinLimit (he : Effect f s c r s' evs) (hs : Regular s) (h : WithinLimit s) :
    WithinLimit s' := by
  unfold WithinLimit at h ⊢
  by_cases hon : c.onHistory = false
  · have hlen : History.len s' = History.len s := congrArg ShardedLog.len (he.shards_eq hon)
    have hlimit := retentionLimit_of_key (he.frame (Call.touches_history hon (.inr rfl)))
    rwa [hlen, hlimit]
  · cases he <;> simp [Call.onHistory] at hon
    case initialized admin operator _ _ _ =>
      have hlen := len_initialized s admin operator
      omega
    case replayed => exact h
    case recorded change =>
      have hlimit := change.retentionLimit_eq
      rw [hlimit, ← History.shards_len, change.log]
      exact (ShardedLog.len_record_le_iff hs.sound.bounded _ _).mpr (.inl h)
    case keptAll => exact h
    case pruned change _ =>
      have hlimit := retentionLimit_of_key (change.other .retentionLimit rfl)
      rw [hlimit, ← History.shards_len, change.log, ShardedLog.len_dropTo, History.shards_len]
      omega
    case prunedByAge min_age _ _ _ _ change _ =>
      have hlimit := retentionLimit_of_key (change.other .retentionLimit rfl)
      have hfewer : (recent f s min_age).length ≤ (History.readAllEntries s).length :=
        List.length_filter_le ..
      have hread := length_readAllEntries hs.sound
      rw [hlimit, ← History.shards_len, change.log, ShardedLog.len_rebuild]
      omega
    case retentionSet limit _ _ _ change _ =>
      have hlimit : retentionLimit s' = limit := by
        simp [retentionLimit, change.other .retentionLimit rfl]
      rw [hlimit, ← History.shards_len, change.log, ShardedLog.len_dropTo]
      exact Nat.min_le_right ..

end Steps

section Runs

variable {legacy : List SLAResult} {s : Storage} {txs : List ContractTx}

/-- Within the limit, every call that stores a decision keeps it. -/
theorem Regular.keepsLimit (hs : Regular s) (hw : WithinLimit s) (txs : List ContractTx) :
    ∀ st ∈ trace exec s txs, appendsEntry st = true → LimitKept st := by
  intro st hst happends
  obtain ⟨before, tx, -, rfl⟩ := mem_trace.mp hst
  have hboth : Regular (final exec s before) ∧ WithinLimit (final exec s before) := by
    refine invariant_run (I := fun cur => Regular cur ∧ WithinLimit cur) ⟨hs, hw⟩ ?_ before
    rintro cur tx ⟨hcur, hwithin⟩
    refine ⟨hcur.call tx, ?_⟩
    rcases invoke_effect hcur.current tx with ⟨r, s', evs, he, hi⟩ | ⟨x, hi⟩
    · rw [hi]
      exact he.withinLimit hcur hwithin
    · rw [hi]
      exact hwithin
  refine (hboth.1.limitKept_iff happends).mpr ?_
  rintro ⟨hover, -⟩
  exact Nat.not_lt_of_le hboth.2 hover

/-- Everything depends on the first call that stores a decision: one that keeps the limit leaves a
history within it. -/
theorem Regular.keepsLimit_iff (hs : Regular s) (txs : List ContractTx) :
    (∀ st ∈ trace exec s txs, appendsEntry st = true → LimitKept st) ↔
      ∀ st, (trace exec s txs).find? appendsEntry = some st → ¬ startsOver st := by
  constructor
  · intro h st hfirst
    have happends := List.find?_some hfirst
    have hst := List.mem_of_find?_eq_some hfirst
    obtain ⟨before, tx, -, rfl⟩ := mem_trace.mp hst
    exact ((hs.along before).limitKept_iff happends).mp (h _ hst happends)
  · intro h
    induction txs generalizing s with
    | nil => simp [trace]
    | cons tx txs ih =>
      rw [trace] at h ⊢
      cases happends : appendsEntry ⟨s, tx⟩ with
      | false =>
        rw [List.find?_cons_of_neg (by simp [happends])] at h
        intro st hst hst'
        rcases List.mem_cons.mp hst with rfl | hrest
        · rw [happends] at hst'
          cases hst'
        · exact ih (hs.call tx) h st hrest hst'
      | true =>
        rw [List.find?_cons_of_pos happends] at h
        have hkept := (hs.limitKept_iff happends).mpr (h _ rfl)
        have hnext : Regular (Step.post exec ⟨s, tx⟩) := hs.call tx
        have hwithin : WithinLimit (Step.post exec ⟨s, tx⟩) := by
          have hlen := hkept.within
          rwa [length_readAllEntries hnext.sound] at hlen
        intro st hst hst'
        rcases List.mem_cons.mp hst with rfl | hrest
        · exact hkept
        · exact hnext.keepsLimit hwithin txs st hrest hst'

theorem Origin.log (h : Origin legacy s) :
    History.shards s =
      ShardedLog.rebuild SLAResult.outage_id legacy ⟨0, 0, fun _ => none, fun _ => []⟩ ∧
      legacy.length < 2 ^ 32 ∧ Current s := by
  cases h with
  | deployed =>
    refine ⟨?_, by simp, current_empty⟩
    exact ShardedLog.ext rfl rfl (fun _ => rfl) (fun _ => rfl)
  | migrated hl admin signed old =>
    obtain ⟨-, hcommits⟩ := migrate_runs admin signed rfl old
    rw [migrateCommits, hcommits]
    exact ⟨log_armsFrom _ hl _, hl.fits, fun _ _ => (migrated_armsFrom _ hl _).version⟩

/-- A run starts with the entries of the vector, in a regular storage. -/
theorem Origin.regular (h : Origin legacy s) :
    Regular s ∧ (History.shards s).items = legacy := by
  obtain ⟨hlog, hfits, hcurrent⟩ := h.log
  refine ⟨⟨hcurrent, ?_⟩, by rw [hlog, ShardedLog.items_rebuild]⟩
  rw [hlog]
  refine (ShardedLog.exact_empty.rebuild legacy).sound ?_
  simpa [ShardedLog.rebuild] using hfits

/-- The vector and the calls of a run are in the order of their ledger times. -/
def InOrder (legacy : List SLAResult) (txs : List ContractTx) : Prop :=
  (legacy.map SLAResult.recorded_at ++ txs.map (·.frame.timestamp)).Pairwise (· ≤ ·)

theorem InOrder.dated (h : InOrder legacy txs) (hitems : (History.shards s).items = legacy)
    {tx : ContractTx} (htx : tx ∈ txs) : Dated tx.frame.timestamp s := by
  obtain ⟨hvector, -, hbetween⟩ := List.pairwise_append.mp h
  refine ⟨by rw [hitems]; exact List.pairwise_map.mp hvector, ?_⟩
  intro entry hentry
  rw [hitems] at hentry
  exact hbetween _ (List.mem_map_of_mem hentry) _ (List.mem_map_of_mem htx)

/-- In the order of the ledger times, what is retained is an end of everything that was ever
recorded. -/
theorem Origin.retained (h : Origin legacy s) (htimes : InOrder legacy txs) :
    History.readAllEntries (final exec s txs) <:+
      legacy ++ (trace exec s txs).filterMap storedResult := by
  obtain ⟨hregular, hitems⟩ := h.regular
  have hcalls : NonDecreasing txs := List.pairwise_map.mp (List.pairwise_append.mp htimes).2.1
  rw [hregular.current.storedResults,
    History.readAllEntries_eq_items (hregular.along txs).sound.bounded, ← hitems]
  cases txs with
  | nil => simp [committed, trace]
  | cons tx rest =>
    refine hregular.items_suffix (htimes.dated hitems (List.mem_cons_self ..)) hcalls ?_
    intro tx' htx'
    rcases List.mem_cons.mp htx' with rfl | hmem
    · exact Nat.le_refl _
    · exact (List.pairwise_cons.mp hcalls).1 tx' hmem

end Runs

/-- How far the retention limit holds over a run: exactly when the first call that stores a
decision does not start over it, so always when the vector the run starts with is within it.
Each of these calls retains the most recent entries of those it found and of its own, and while
the records come in order the run retains the most recent part of all of them. -/
structure RetentionLaw (legacy : List SLAResult) (s : Storage) (txs : List ContractTx) : Prop where
  kept_iff : (∀ st ∈ trace exec s txs, appendsEntry st = true → LimitKept st) ↔
    ∀ st, (trace exec s txs).find? appendsEntry = some st → ¬ startsOver st
  kept : legacy.length ≤ retentionLimit s →
    ∀ st ∈ trace exec s txs, appendsEntry st = true → LimitKept st
  newest : ∀ st ∈ trace exec s txs, appendsEntry st = true →
    History.readAllEntries (st.post exec) <:+
      History.readAllEntries st.pre ++ (storedResult st).toList
  recorded : InOrder legacy txs → ∀ before, before <+: txs →
    History.readAllEntries (final exec s before) <:+
      legacy ++ (trace exec s before).filterMap storedResult

/-- The retention limit over every run from a fresh deployment or from a migrated storage, of any
legacy vector and under any stored limit. -/
theorem retention_law {legacy : List SLAResult} {s : Storage} (h : Origin legacy s)
    (txs : List ContractTx) : RetentionLaw legacy s txs where
  kept_iff := h.regular.1.keepsLimit_iff txs
  kept := by
    intro hle
    refine h.regular.1.keepsLimit ?_ txs
    rwa [WithinLimit, ← History.shards_len, h.log.1, ShardedLog.len_rebuild]
  newest := by
    intro st hst happends
    obtain ⟨before, tx, -, rfl⟩ := mem_trace.mp hst
    exact (h.regular.1.along before).newest happends
  recorded := by
    rintro htimes before ⟨later, rfl⟩
    refine h.retained (htimes.sublist ?_)
    exact (List.Sublist.refl _).append ((List.sublist_append_left _ _).map _)

/-- A storage of version 2 with two entries under a limit of one. -/
def overfullLegacy : Storage :=
  let entry : SLAResult := ⟨sampleOutage, .met, 5, 15, 750, .rew, .top, 0, 1⟩
  (((((Store.empty.set .admin ⟨1⟩).set .operator ⟨2⟩).set .config defaultConfigs).set
    .storageVersion 2).set .retentionLimit 1).set .history [entry, { entry with amount := 375 }]

/-- What `migrate` makes of it. -/
def overfull : Storage := migrateCommits ⟨[⟨1⟩], 2, 2⟩ ⟨1⟩ overfullLegacy

theorem origin_overfull : Origin ((overfullLegacy .history).getD []) overfull := by
  refine .migrated ⟨rfl, by decide, ?_⟩ (by decide) (by decide) (by decide)
  intro k hk
  cases k <;> simp_all [History.logKeys, History.isHistoryKey, overfullLegacy]

/-- The two entries stay: every append drops one entry only. -/
theorem append_stays_over_limit :
    ¬ ∀ legacy s, Origin legacy s → ∀ txs, ∀ st ∈ trace exec s txs, appendsEntry st = true →
      LimitKept st := by
  intro h
  have hkept := h _ _ origin_overfull [submitTen 3 critical] _ (List.mem_cons_self ..) (by decide)
  have hover : ¬ (History.readAllEntries (Step.post exec ⟨overfull, submitTen 3 critical⟩)).length ≤
      retentionLimit (Step.post exec ⟨overfull, submitTen 3 critical⟩) := by decide
  exact hover hkept.within

theorem retention_law_overfull :
    RetentionLaw ((overfullLegacy .history).getD []) overfull [submitTen 3 critical] :=
  retention_law origin_overfull _

end ApexChainx
