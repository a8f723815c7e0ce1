import ApexChainx.Contract.HistoryMirror
import ApexChainx.Proofs.Health

/-!
# The off-chain history helpers agree with the contract

An off-chain system keeps the entries that the contract returns, in a form of its own. Its lookups
then find what the contract finds through its index, and its age prune keeps what
`prune_history_by_age` keeps, also where the contract refuses the prune.
-/

namespace ApexChainx

open Host Misc

section Helpers

variable {Entry : Type} {outageIdOf : Entry → Symbol} {recordedAt : Entry → Nat}

/-- The loop of `getLatestByOutage` ends with the last match. -/
theorem TypeScript.getLatestByOutage_eq (history : List Entry) (outageId : Symbol) :
    TypeScript.getLatestByOutage outageIdOf history outageId =
      (history.filter fun e => outageIdOf e = outageId).getLast? := by
  induction history using List.reverseRecOn with
  | nil => rfl
  | append_singleton history entry ih =>
    unfold TypeScript.getLatestByOutage at ih ⊢
    rw [List.foldl_append, ih, List.filter_append]
    by_cases h : outageIdOf entry = outageId <;> simp [h]

/-- A window that ends at the newest entry is an age prune at its time. -/
theorem TypeScript.pruneByWindow_eq (history : List Entry) (windowSize : Nat) :
    TypeScript.pruneByWindow recordedAt history windowSize =
      TypeScript.pruneByMinAge recordedAt history (TypeScript.newest recordedAt history)
        windowSize := by
  have hcutoff : ∀ e : Entry, ((recordedAt e : Int) ≥
      (TypeScript.newest recordedAt history : Int) - windowSize) ↔
      (recordedAt e : Int) ≥ if (TypeScript.newest recordedAt history : Int) > windowSize then
        (TypeScript.newest recordedAt history : Int) - windowSize else 0 := by
    intro e
    split <;> omega
  unfold TypeScript.pruneByWindow TypeScript.pruneByMinAge TypeScript.pruneByAge
  simp only [hcutoff]
  split
  · next hempty => simp [List.length_eq_zero_iff.mp hempty]
  · rfl

/-- The mirror's cutoff, where the contract has one. -/
theorem TypeScript.pruneByMinAge_kept (history : List Entry) (now minAge : Nat) :
    (TypeScript.pruneByMinAge recordedAt history now minAge).kept =
      history.filter fun e => now - minAge ≤ recordedAt e := by
  have hcutoff : ∀ e : Entry, ((recordedAt e : Int) ≥
      if (now : Int) > minAge then (now : Int) - minAge else 0) ↔ now - minAge ≤ recordedAt e := by
    intro e
    split <;> omega
  simp only [TypeScript.pruneByMinAge, hcutoff]

end Helpers

/-! ## The prune -/

section Prune

variable {f : Frame Address} {s : Storage} {caller : Address} {min_age : Nat}

/-- The admin's prune goes through for every age below the ledger time. -/
theorem pruneHistoryByAge_returns (by_admin : ByAdmin f s caller)
    (inRange : min_age < f.timestamp) :
    ∃ env', (pruneHistoryByAge caller min_age).Returns f ⟨s, [], []⟩ () env' := by
  obtain ⟨version, signed, standing, admin⟩ := by_admin
  have hrest : Prog.Total (do
      let history ← Contract.ask History.readAllEntries
      let new_history := history.filter (f.timestamp - min_age ≤ ·.recorded_at)
      let removed := history.length - new_history.length
      if removed > 0 then History.rebuildHistory new_history else pure ()
      Contract.publish (.prunedAge caller removed new_history.length)) :=
    .bind (.ask _) fun _ =>
      .ite _ (.bind (History.rebuildHistory_total _) fun _ => .publish _) (.publish _)
  obtain ⟨_, env', hreturns⟩ := hrest f ⟨s, [], []⟩
  refine ⟨env', ?_⟩
  simp only [pruneHistoryByAge, Contract.reads, Contract.failIf, Prog.returns_reads_bind,
    checkVersion_eq_ok, returns_requireAdmin_bind, Prog.returns_timestamp_bind,
    Prog.returns_failIf_bind]
  exact ⟨(), version, signed, standing, admin, by omega, hreturns⟩

/-- From the ledger time on it is refused. -/
theorem pruneHistoryByAge_refused (by_admin : ByAdmin f s caller)
    (outOfRange : f.timestamp ≤ min_age) :
    invoke exec ⟨.pruneHistoryByAge caller min_age, f⟩ s =
      ⟨s, [], .error (.err .InvalidInput)⟩ := by
  obtain ⟨version, signed, standing, admin⟩ := by_admin
  have hversion : (Contract.reads checkVersion).Returns f ⟨s, [], []⟩ () ⟨s, [], []⟩ := by
    simp [version]
  have hadmin : (requireAdmin caller).Returns f ⟨s, [], []⟩ () ⟨s, [], []⟩ := by
    simp [requireAdmin, signed, standing, admin]
  have htime : (Prog.timestamp : Contract Nat).Returns f ⟨s, [], []⟩ f.timestamp ⟨s, [], []⟩ :=
    rfl
  have hrange : (Contract.failIf (min_age ≥ f.timestamp) .InvalidInput).Fails f ⟨s, [], []⟩
      (.err .InvalidInput) ⟨s, [], []⟩ := by simp [Prog.Fails, Prog.failIf, outOfRange]
  have hfails : (pruneHistoryByAge caller min_age).Fails f ⟨s, [], []⟩ (.err .InvalidInput)
      ⟨s, [], []⟩ := by
    unfold pruneHistoryByAge
    rw [Prog.Fails, hversion.bind_apply, hadmin.bind_apply, htime.bind_apply]
    exact hrange.bind _
  exact invoke_of_fails (hfails.bind _)

/-- The event of an age prune. -/
def prunedAgeEvent (f : Frame Address) (s : Storage) (caller : Address) (min_age : Nat) : Event :=
  .prunedAge caller ((History.readAllEntries s).length - (recent f s min_age).length)
    (recent f s min_age).length

/-- What an age prune that goes through keeps and announces. -/
theorem pruneHistoryByAge_kept (h : Regular s) (by_admin : ByAdmin f s caller)
    (inRange : min_age < f.timestamp) :
    ∃ s', Effect f s (.pruneHistoryByAge caller min_age) .unit s'
        [prunedAgeEvent f s caller min_age] ∧
      invoke exec ⟨.pruneHistoryByAge caller min_age, f⟩ s =
        ⟨s', [prunedAgeEvent f s caller min_age], .ok .unit⟩ ∧
      History.readAllEntries s' = recent f s min_age := by
  obtain ⟨r, s', evs, he, hi⟩ := effect_of_program
    (c := .pruneHistoryByAge caller min_age) rfl h.current
    (pruneHistoryByAge_returns by_admin inRange)
  have hbound := (he.sound h.sound).bounded
  have hleft : r = .unit ∧ evs = [prunedAgeEvent f s caller min_age] ∧
      History.readAllEntries s' = recent f s min_age := by
    cases he
    case keptAll all => exact ⟨rfl, by simp [prunedAgeEvent, all], all.symm⟩
    case prunedByAge change _ =>
      refine ⟨rfl, rfl, ?_⟩
      rw [History.readAllEntries_eq_items hbound, change.log, ShardedLog.items_rebuild]
  obtain ⟨rfl, rfl, hread⟩ := hleft
  exact ⟨s', he, hi, hread⟩

end Prune

/-! ## The off-chain system -/

section OffChain

variable {Entry : Type} (outageIdOf : Entry → Symbol) (recordedAt : Entry → Nat)
  (seen : SLAResult → Entry)

/-- The mirrored lookups find in `mirror` what the contract finds through its index. -/
structure MirrorsLookups (s : Storage) (mirror : List Entry) : Prop where
  history : ∃ entries, getHistory s = .ok entries ∧ mirror = entries.map seen
  byOutage : ∀ outage_id, ∃ entries, getHistoryByOutage outage_id s = .ok entries ∧
    TypeScript.getHistoryByOutage outageIdOf mirror outage_id =
      ⟨outage_id, entries.map seen, entries.length⟩
  latest : ∀ outage_id, ∃ latest, getLatestByOutage outage_id s = .ok latest ∧
    TypeScript.getLatestByOutage outageIdOf mirror outage_id = latest.map seen

/-- The mirrored prune does to `mirror` what the outcome of an age prune, called by `caller` at
the time `now`, did to the history. -/
structure MirrorsPrune (s : Storage) (mirror : List Entry) (caller : Address) (now min_age : Nat)
    (outcome : Outcome StorageKey.Val Event SLAError Reply) : Prop where
  lookups : MirrorsLookups outageIdOf seen outcome.storage
    (TypeScript.pruneByMinAge recordedAt mirror now min_age).kept
  announced : min_age < now → outcome.reply = .ok .unit ∧
    outcome.events = [.prunedAge caller
      (TypeScript.pruneByMinAge recordedAt mirror now min_age).pruned
      (TypeScript.pruneByMinAge recordedAt mirror now min_age).kept.length]
  refused : now ≤ min_age → outcome = ⟨s, [], .error (.err .InvalidInput)⟩ ∧
    (TypeScript.pruneByMinAge recordedAt mirror now min_age).pruned = 0
  window : TypeScript.newest recordedAt mirror = now →
    TypeScript.pruneByWindow recordedAt mirror min_age =
      TypeScript.pruneByMinAge recordedAt mirror now min_age

variable {outageIdOf recordedAt seen}

theorem Healthy.mirrorsLookups {s : Storage} (hs : Healthy s)
    (hexact : (History.shards s).Exact SLAResult.outage_id)
    (houtage : ∀ entry, outageIdOf (seen entry) = entry.outage_id) :
    MirrorsLookups outageIdOf seen s ((History.readAllEntries s).map seen) where
  history := ⟨_, hs.getHistory_ok, rfl⟩
  byOutage := fun outage_id => by
    have hentries : History.entriesForOutage s outage_id =
        (History.readAllEntries s).filter (·.outage_id = outage_id) := by
      rw [hs.readAllEntries_eq]
      exact hexact.entries_eq outage_id
    refine ⟨History.entriesForOutage s outage_id, by simp [getHistoryByOutage, hs.checkVersion_ok],
      ?_⟩
    simp [TypeScript.getHistoryByOutage, List.filter_map, Function.comp_def, houtage, hentries]
  latest := fun outage_id => by
    have hlatest : History.latestForOutage s outage_id =
        ((History.readAllEntries s).filter (·.outage_id = outage_id)).getLast? := by
      rw [hs.readAllEntries_eq]
      exact hexact.latest_eq outage_id
    refine ⟨History.latestForOutage s outage_id, by simp [getLatestByOutage, hs.checkVersion_ok],
      ?_⟩
    rw [TypeScript.getLatestByOutage_eq]
    simp [List.filter_map, Function.comp_def, houtage, hlatest]

theorem recent_map (htime : ∀ entry, recordedAt (seen entry) = entry.recorded_at)
    (f : Frame Address) (s : Storage) (min_age : Nat) :
    (TypeScript.pruneByMinAge recordedAt ((History.readAllEntries s).map seen) f.timestamp
      min_age).kept = (recent f s min_age).map seen := by
  rw [TypeScript.pruneByMinAge_kept]
  simp [recent, List.filter_map, Function.comp_def, htime]

theorem Healthy.mirrorsPrune {f : Frame Address} {s : Storage} {caller : Address}
    (hs : Healthy s) (hexact : HistoryExact s)
    (houtage : ∀ entry, outageIdOf (seen entry) = entry.outage_id)
    (htime : ∀ entry, recordedAt (seen entry) = entry.recorded_at)
    (by_admin : ByAdmin f s caller) (min_age : Nat) :
    MirrorsPrune outageIdOf recordedAt seen s ((History.readAllEntries s).map seen) caller
      f.timestamp min_age (invoke exec ⟨.pruneHistoryByAge caller min_age, f⟩ s) := by
  have hkept := recent_map htime f s min_age
  have hpruned : (TypeScript.pruneByMinAge recordedAt ((History.readAllEntries s).map seen)
      f.timestamp min_age).pruned =
        (History.readAllEntries s).length - (recent f s min_age).length := by
    have hcount := congrArg List.length hkept
    have hread : ((History.readAllEntries s).map seen).length =
        (History.readAllEntries s).length := List.length_map _
    rw [List.length_map] at hcount
    rw [← hcount, ← hread]
    rfl
  have hall : f.timestamp ≤ min_age → recent f s min_age = History.readAllEntries s := by
    intro outOfRange
    have hcutoff : f.timestamp - min_age = 0 := Nat.sub_eq_zero_of_le outOfRange
    simp [recent, hcutoff]
  refine ⟨?_, ?_, ?_, ?_⟩
  · rw [hkept]
    rcases Nat.lt_or_ge min_age f.timestamp with inRange | outOfRange
    · obtain ⟨s', he, hi, hread⟩ := pruneHistoryByAge_kept hs.regular by_admin inRange
      have hexact' := (he.historyExact hexact rfl hs.regular.sound.bounded).1
      rw [hi, ← hread]
      exact (he.healthy hs).mirrorsLookups hexact'.exact houtage
    · rw [pruneHistoryByAge_refused by_admin outOfRange, hall outOfRange]
      exact hs.mirrorsLookups hexact.exact houtage
  · intro inRange
    obtain ⟨s', -, hi, -⟩ := pruneHistoryByAge_kept hs.regular by_admin inRange
    rw [hi, hkept, hpruned, List.length_map]
    exact ⟨rfl, rfl⟩
  · intro outOfRange
    refine ⟨pruneHistoryByAge_refused by_admin outOfRange, ?_⟩
    rw [hpruned, hall outOfRange, Nat.sub_self]
  · intro hnewest
    rw [TypeScript.pruneByWindow_eq, hnewest]

end OffChain

/-- The off-chain history helpers over every run in which `initialize` succeeds once. Whatever form
the off-chain system gives an entry, if it keeps its outage and its ledger time, the lookups in the
mirrored history find what the contract finds, and mirroring an age prune gives the history that
the admin's call leaves, as many entries dropped as it announces, and nothing dropped where the
call is refused. -/
theorem historyMirror_agrees {Entry : Type} (outageIdOf : Entry → Symbol)
    (recordedAt : Entry → Nat) (seen : SLAResult → Entry)
    (houtage : ∀ entry, outageIdOf (seen entry) = entry.outage_id)
    (htime : ∀ entry, recordedAt (seen entry) = entry.recorded_at)
    (txs : List ContractTx) (hone : initializations txs = 1)
    (hfew : (recorded txs).length < 2 ^ 32) :
    let s := after txs
    let mirror := (History.readAllEntries s).map seen
    MirrorsLookups outageIdOf seen s mirror ∧
    ∀ f caller, ByAdmin f s caller → ∀ min_age,
      MirrorsPrune outageIdOf recordedAt seen s mirror caller f.timestamp min_age
        (invoke exec ⟨.pruneHistoryByAge caller min_age, f⟩ s) := by
  have hs : Healthy (after txs) :=
    healthy_of_stored (configSound_after (show 0 < initializations txs by omega)).version
  have hexact := (historyExact_after hone hfew).1
  exact ⟨hs.mirrorsLookups hexact.exact houtage,
    fun f caller by_admin min_age => hs.mirrorsPrune hexact houtage htime by_admin min_age⟩

/-- An off-chain system that keeps the outage and the time of each entry, after a run that evicted
one, and the prune that drops the older of the two it has left. -/
theorem historyMirror_agrees_busyRun :
    let seen := fun entry : SLAResult => (entry.outage_id, entry.recorded_at)
    let mirror := (History.readAllEntries (after busyRun)).map seen
    mirror.map Prod.snd = [5, 6] ∧
      MirrorsLookups Prod.fst seen (after busyRun) mirror ∧
      MirrorsPrune Prod.fst Prod.snd seen (after busyRun) mirror ⟨1⟩ 9 3
        (invoke exec ⟨.pruneHistoryByAge ⟨1⟩ 3, ⟨[⟨1⟩], 9, 7⟩⟩ (after busyRun)) := by
  intro seen mirror
  obtain ⟨hlookups, hprune⟩ := historyMirror_agrees Prod.fst Prod.snd seen (fun _ => rfl)
    (fun _ => rfl) busyRun (by decide) (by decide)
  have by_admin : ByAdmin ⟨[⟨1⟩], 9, 7⟩ (after busyRun) ⟨1⟩ :=
    ⟨by decide, by decide, by decide, by decide⟩
  exact ⟨by decide, hlookups, hprune _ _ by_admin 3⟩

end ApexChainx
