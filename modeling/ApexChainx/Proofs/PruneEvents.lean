import ApexChainx.Proofs.HistoryInvariant

/-!
# What the prune events report

Three calls trim the history and report how many entries they removed and how many they kept.
`prune_history_by_age` counts both while it filters, and `set_retention_limit` reports only when
something was removed. `prune_history` reports its argument as the kept count, also when fewer
entries are retained, and exactly then its event does not account for the history.
-/

namespace ApexChainx

open Host Misc

/-- The removed and the kept count that a `pruned` or a `pruned_a` event reports. -/
def Event.pruneCounts : Event → Option (Nat × Nat)
  | .pruned _ removed_count kept_count | .prunedAge _ removed_count kept_count =>
    some (removed_count, kept_count)
  | _ => none

/-- The number of entries a storage retains. -/
def retained (s : Storage) : Nat := (History.readAllEntries s).length

/-- Every prune event of the step gives the number of entries retained after it as the kept
count, and the number retained before it as the sum of both counts. -/
def AccountsForHistory (st : ContractStep) : Prop :=
  ∀ ev ∈ st.events exec, ∀ removed kept, ev.pruneCounts = some (removed, kept) →
    kept = retained (st.post exec) ∧ removed + kept = retained st.pre

/-- The admin calls `prune_history` to keep more entries than are retained. -/
def PrunesBeyond (st : ContractStep) : Prop :=
  ∃ caller keep_latest, st.tx.call = .pruneHistory caller keep_latest ∧
    ByAdmin st.tx.frame st.pre caller ∧ retained st.pre < keep_latest

/-! ## One call -/

theorem pruneCounts_statsAfter (stats : SLAStats) (result : SLAResult) :
    ∀ ev ∈ (statsAfter stats result).2, ev.pruneCounts = none := by
  have hcounter : ∀ counter value, ∀ ev ∈ (bumpCounter counter value).2,
      ev.pruneCounts = none := by
    intro counter value
    unfold bumpCounter
    split <;> simp [Event.pruneCounts]
  have htotal : ∀ counter value amount, ∀ ev ∈ (bumpTotal counter value amount).2,
      ev.pruneCounts = none := by
    intro counter value amount
    unfold bumpTotal
    split <;> simp [Event.pruneCounts]
  intro ev hev
  unfold statsAfter at hev
  split at hev
  all_goals
    simp only [List.mem_append] at hev
    grind

theorem pruneCounts_recordedEvents (f : Frame Address) (s : Storage) (severity : Symbol)
    (result : SLAResult) :
    ∀ ev ∈ recordedEvents f s severity result, ev.pruneCounts = none := by
  have hstats := pruneCounts_statsAfter (statsOf s) result
  simpa [recordedEvents, or_imp, forall_and, Event.pruneCounts] using hstats

theorem pruneCounts_droppedEvents (s : Storage) (caller : Address) :
    ∀ ev ∈ droppedEvents s caller, ev.pruneCounts = none := by
  unfold droppedEvents
  split <;> simp [Event.pruneCounts]

section Steps

variable {f : Frame Address} {s s' : Storage} {c : Call} {r : Reply} {evs : List Event}

/-- Trimming to `keep` entries removes what is over, and keeps the rest. -/
theorem retained_dropTo {keep : Nat} (hs : (History.shards s).Sound SLAResult.outage_id 32)
    (hs' : (History.shards s').Sound SLAResult.outage_id 32)
    (hlog : History.shards s' = (History.shards s).dropTo SLAResult.outage_id keep) :
    retained s = History.len s ∧ retained s' = min (History.len s) keep := by
  refine ⟨length_readAllEntries hs, ?_⟩
  rw [retained, length_readAllEntries hs', ← History.shards_len, hlog, ShardedLog.len_dropTo,
    History.shards_len]

/-- The prune events of a call account for the history, unless it is a `prune_history` whose
argument exceeds what is retained. -/
theorem Effect.pruneCounts (he : Effect f s c r s' evs)
    (hs : (History.shards s).Sound SLAResult.outage_id 32)
    (hbeyond : ∀ caller keep_latest, c = .pruneHistory caller keep_latest →
      keep_latest ≤ retained s) :
    ∀ ev ∈ evs, ∀ removed kept, ev.pruneCounts = some (removed, kept) →
      kept = retained s' ∧ removed + kept = retained s := by
  have hs' := he.sound hs
  have hquiet : (∀ ev ∈ evs, ev.pruneCounts = none) →
      ∀ ev ∈ evs, ∀ removed kept, ev.pruneCounts = some (removed, kept) →
        kept = retained s' ∧ removed + kept = retained s := by
    intro hnone ev hev removed kept hcounts
    rw [hnone ev hev] at hcounts
    cases hcounts
  cases he
  case pruned caller keep _ change _ =>
    obtain ⟨hpre, hpost⟩ := retained_dropTo hs hs' change.log
    have hle := hbeyond caller keep rfl
    simp only [List.mem_singleton, forall_eq, Event.pruneCounts, Option.some.injEq, Prod.mk.injEq]
    rintro _ _ ⟨rfl, rfl⟩
    omega
  case keptAll =>
    simp only [List.mem_singleton, forall_eq, Event.pruneCounts, Option.some.injEq, Prod.mk.injEq]
    rintro _ _ ⟨rfl, rfl⟩
    simp [retained]
  case prunedByAge min_age _ _ some_old _ change _ =>
    have hpost : retained s' = (recent f s min_age).length := by
      rw [retained, length_readAllEntries hs', ← History.shards_len, change.log,
        ShardedLog.len_rebuild]
    simp only [List.mem_singleton, forall_eq, Event.pruneCounts, Option.some.injEq, Prod.mk.injEq]
    rintro _ _ ⟨rfl, rfl⟩
    simp only [retained] at hpost ⊢
    omega
  case retentionSet caller limit _ _ _ change _ =>
    have hshards : History.shards (s.set .retentionLimit limit) = History.shards s :=
      History.shards_set_of_other rfl
    obtain ⟨hpre, hpost⟩ := retained_dropTo hs hs' change.log
    by_cases hremoved : History.len s - limit > 0
    · simp only [hremoved, if_true, List.mem_cons, List.not_mem_nil, or_false, forall_eq_or_imp,
        forall_eq, Event.pruneCounts, reduceCtorEq, false_imp_iff, implies_true, true_and,
        Option.some.injEq, Prod.mk.injEq]
      rintro _ _ ⟨rfl, rfl⟩
      omega
    · simp [hremoved, Event.pruneCounts]
  case recorded => exact hquiet (pruneCounts_recordedEvents _ _ _ _)
  case operatorSet =>
    exact hquiet (by
      simpa [or_imp, forall_and, Event.pruneCounts] using pruneCounts_droppedEvents s _)
  case renounced =>
    exact hquiet (by
      simpa [or_imp, forall_and, Event.pruneCounts] using pruneCounts_droppedEvents s _)
  case customSet => exact hquiet (by split <;> simp [Event.pruneCounts])
  all_goals exact hquiet (by simp [or_imp, forall_and, Event.pruneCounts])

end Steps

/-! ## Every step of a run -/

/-- Every prune event of a run accounts for the history, except those of the `prune_history` calls
whose argument exceeds what is retained. -/
theorem prune_events_account_iff (txs : List ContractTx) (tx : ContractTx) :
    AccountsForHistory ⟨after txs, tx⟩ ↔ ¬ PrunesBeyond ⟨after txs, tx⟩ := by
  constructor
  · -- such a call reports more kept entries than there were
    rintro haccounts ⟨caller, keep, hcall, by_admin, hbeyond⟩
    obtain ⟨call, f⟩ := tx
    obtain rfl : call = .pruneHistory caller keep := hcall
    obtain ⟨env', hreturns⟩ := pruneHistory_returns by_admin keep
    have hreply := returns_replyUnit.mpr ⟨rfl, hreturns⟩
    have hok : succeeds ⟨after txs, ⟨.pruneHistory caller keep, f⟩⟩ = true :=
      succeeds_of_returns hreply
    obtain ⟨r, s', evs, he, hi⟩ := effect_of_succeeds (current_after txs) hok
    have hevents := events_of_invoke hi
    cases he
    have hcounts := haccounts (.pruned caller (History.len (after txs) - keep) keep)
      (by rw [hevents]; simp) _ _ rfl
    simp only at hbeyond hcounts
    omega
  · intro hbeyond
    rcases invoke_effect (current_after txs) tx with ⟨r, s', evs, he, hi⟩ | ⟨x, hi⟩
    · intro ev hev
      rw [events_of_invoke hi] at hev
      rw [post_of_invoke hi]
      refine he.pruneCounts (sound_after txs) ?_ ev hev
      intro caller keep hcall
      by_contra hlt
      have by_admin : ByAdmin tx.frame (after txs) caller := by
        rw [hcall] at he
        cases he
        assumption
      exact hbeyond ⟨caller, keep, hcall, by_admin, Nat.lt_of_not_le hlt⟩
    · intro ev hev
      rw [events_of_invoke hi] at hev
      cases hev

/-- The admin of a fresh contract prunes its empty history to one entry. -/
def pruneEmpty : ContractTx := ⟨.pruneHistory ⟨1⟩ 1, ⟨[⟨1⟩], 2, 2⟩⟩

/-- That prune reports one kept entry where there is none. -/
theorem pruneEmpty_overstates : ¬ ∀ txs tx, AccountsForHistory ⟨after txs, tx⟩ := by
  intro h
  have hevents : Step.events exec ⟨after launch, pruneEmpty⟩ = [.pruned ⟨1⟩ 0 1] := by rfl
  have hcounts := h launch pruneEmpty (.pruned ⟨1⟩ 0 1) (by rw [hevents]; simp) 0 1 rfl
  have hempty : retained (after launch) = 0 := by rfl
  simp only [hempty] at hcounts
  omega

end ApexChainx
