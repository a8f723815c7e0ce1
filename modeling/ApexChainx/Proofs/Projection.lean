import ApexChainx.Proofs.Generations

/-!
# The projection of the event log

`Projection` is what an indexer keeps: the roles and their pending slots, the configurations, the
two flags, the retention limit, the retained history and the statistics. `Projection.apply` is
its update rule, one clause per event, and every successful call changes the state as its events
say (`Effect.projection`).
-/

namespace ApexChainx

open Host Misc

/-! ## The projection -/

/-- What an indexer reconstructs from the events. -/
structure Projection where
  admin : Option Address
  operator : Option Address
  pendingAdmin : Option Address
  pendingOperator : Option Address
  config : OrdMap Symbol SLAConfig
  custom : OrdMap Symbol SLAConfig
  paused : Bool
  frozen : Bool
  retentionLimit : Nat
  history : List SLAResult
  stats : SLAStats

/-- What it starts from: the arguments of `initialize` and the defaults. -/
def Projection.initial (admin operator : Address) : Projection :=
  ⟨some admin, some operator, none, none, defaultConfigs, OrdMap.empty, false, false,
    maxHistorySize, [], SLAStats.zero⟩

/-- A history cut to its limit after one append. -/
def evicted (limit : Nat) (history : List SLAResult) : List SLAResult :=
  if history.length > limit then history.tail else history

/-- The update rule of one event. -/
def Projection.apply (p : Projection) : Event → Projection
  | .adminProp _ new_admin | .adminSup _ _ new_admin => { p with pendingAdmin := some new_admin }
  | .adminAcc caller => { p with admin := some caller, pendingAdmin := none }
  | .adminCan _ => { p with pendingAdmin := none }
  | .adminRen _ => { p with admin := none, pendingAdmin := none }
  | .opProp _ new_operator | .opSup _ _ new_operator =>
    { p with pendingOperator := some new_operator }
  | .opAcc caller => { p with operator := some caller, pendingOperator := none }
  | .opCan _ => { p with pendingOperator := none }
  | .opSet _ new_operator => { p with operator := some new_operator, pendingOperator := none }
  | .configUpd severity threshold penalty reward =>
    { p with config := p.config.set severity ⟨threshold, penalty, reward⟩ }
  | .sevAdd severity threshold penalty reward | .sevUpd severity threshold penalty reward =>
    { p with custom := p.custom.set severity ⟨threshold, penalty, reward⟩ }
  | .configRem severity => { p with custom := p.custom.remove severity }
  | .paused _ flag | .unpaused _ flag => { p with paused := flag }
  | .configFreeze _ => { p with frozen := true }
  | .configUnfreeze _ => { p with frozen := false }
  | .retLim _ limit => { p with retentionLimit := limit }
  | .pruned _ removed _ | .prunedAge _ removed _ => { p with history := p.history.drop removed }
  | .slaCalc _ decision =>
    { p with
      history := evicted p.retentionLimit (p.history ++ [decision])
      stats := (statsAfter p.stats decision).1 }
  | .settleIntent _ _ _ | .dupInput _ _ _ | .adminXp _ _ | .opXp _ _ => p
  | .statsSat _ _ _ | .migrateDone _ _ _ => p

/-- The projection of a list of events. -/
def Projection.fold (p : Projection) (evs : List Event) : Projection :=
  evs.foldl Projection.apply p

@[simp] theorem Projection.fold_nil (p : Projection) : p.fold [] = p := rfl

@[simp] theorem Projection.fold_cons (p : Projection) (ev : Event) (evs : List Event) :
    p.fold (ev :: evs) = (p.apply ev).fold evs := rfl

@[simp] theorem Projection.fold_append (p : Projection) (evs evs' : List Event) :
    p.fold (evs ++ evs') = (p.fold evs).fold evs' := List.foldl_append

/-- The same part of the stored state, with a given history. -/
def projectionWith (s : Storage) (history : List SLAResult) : Projection where
  admin := s .admin
  operator := s .operator
  pendingAdmin := s (.pending .admin)
  pendingOperator := s (.pending .operator)
  config := (s .config).getD OrdMap.empty
  custom := customConfigs s
  paused := isPaused s
  frozen := isConfigFrozen s
  retentionLimit := retentionLimit s
  history := history
  stats := statsOf s

/-- The same part of the stored state. -/
def projectionOf (s : Storage) : Projection := projectionWith s (History.readAllEntries s)

theorem projectionWith_initialized (admin operator : Address) :
    projectionWith (initializedStorage Store.empty admin operator) [] =
      .initial admin operator := by
  simp [projectionWith, initializedStorage, Projection.initial, customConfigs, isPaused,
    isConfigFrozen, retentionLimit, statsOf]

/-! ## What the events of a call do -/

section Fold

variable (p : Projection)

theorem fold_clamps {evs : List Event} (h : ∀ ev ∈ evs, ev.isClamp = true) : p.fold evs = p := by
  induction evs with
  | nil => rfl
  | cons ev evs ih =>
    have hrest := ih fun other ho => h other (List.mem_cons_of_mem _ ho)
    have hclamp := h ev (List.mem_cons_self ..)
    cases ev <;> simp [Event.isClamp] at hclamp
    exact hrest

theorem statsAfter_clamps (stats : SLAStats) (result : SLAResult) :
    ∀ ev ∈ (statsAfter stats result).2, ev.isClamp = true := by
  have hcounter : ∀ counter value, ∀ ev ∈ (bumpCounter counter value).2, ev.isClamp = true := by
    intro counter value
    unfold bumpCounter
    split <;> simp [Event.isClamp]
  have htotal : ∀ counter value amount,
      ∀ ev ∈ (bumpTotal counter value amount).2, ev.isClamp = true := by
    intro counter value amount
    unfold bumpTotal
    split <;> simp [Event.isClamp]
  intro ev hev
  unfold statsAfter at hev
  split at hev
  · simp only [List.mem_append] at hev
    rcases hev with (hev | hev) | hev
    · exact hcounter _ _ ev hev
    · exact hcounter _ _ ev hev
    · exact htotal _ _ _ ev hev
  · simp only [List.mem_append] at hev
    rcases hev with hev | hev
    · exact hcounter _ _ ev hev
    · exact htotal _ _ _ ev hev

/-- The events of a stored decision append it and count it. -/
theorem fold_recordedEvents (f : Frame Address) (s : Storage) (severity : Symbol)
    (result : SLAResult) :
    p.fold (recordedEvents f s severity result) =
      { p with
        history := evicted p.retentionLimit (p.history ++ [result])
        stats := (statsAfter p.stats result).1 } := by
  rw [recordedEvents, Projection.fold_append, fold_clamps p (statsAfter_clamps _ _)]
  rfl

/-- Clearing the pending operator, with or without its event. -/
theorem fold_droppedEvents {s : Storage} (caller : Address)
    (hp : p.pendingOperator = s (.pending .operator)) :
    p.fold (droppedEvents s caller) = { p with pendingOperator := none } := by
  unfold droppedEvents
  split
  · rfl
  · rename_i hnone
    have hslot : p.pendingOperator = none := by
      rw [hp]
      exact Option.not_isSome_iff_eq_none.mp hnone
    cases p
    cases hslot
    rfl

/-- The event of a superseded proposal is followed by the event of the new one. -/
theorem fold_adminSup (o : Option Address) (caller new_admin : Address) :
    p.fold (o.toList.map (.adminSup caller · new_admin) ++ [.adminProp caller new_admin]) =
      { p with pendingAdmin := some new_admin } := by
  cases o <;> rfl

theorem fold_opSup (o : Option Address) (caller new_operator : Address) :
    p.fold (o.toList.map (.opSup caller · new_operator) ++ [.opProp caller new_operator]) =
      { p with pendingOperator := some new_operator } := by
  cases o <;> rfl

end Fold

/-! ## Age prunes of a dated history -/

/-- Filtering an increasing list by a lower bound drops its front. -/
theorem filter_ge_eq_drop {α : Type} (g : α → Nat) (cutoff : Nat) {l : List α}
    (h : l.Pairwise fun a b => g a ≤ g b) :
    l.filter (cutoff ≤ g ·) = l.drop (l.length - (l.filter (cutoff ≤ g ·)).length) := by
  induction l with
  | nil => rfl
  | cons a rest ih =>
    obtain ⟨hle, hrest⟩ := List.pairwise_cons.mp h
    by_cases hkeep : cutoff ≤ g a
    · have hall : (a :: rest).filter (cutoff ≤ g ·) = a :: rest := by
        refine List.filter_eq_self.mpr ?_
        intro b hb
        rcases List.mem_cons.mp hb with rfl | hb
        · simpa using hkeep
        · simpa using Nat.le_trans hkeep (hle b hb)
      rw [hall]
      simp
    · have hskip : (a :: rest).filter (cutoff ≤ g ·) = rest.filter (cutoff ≤ g ·) := by
        simp [hkeep]
      have hlen := List.length_filter_le (fun b => cutoff ≤ g b) rest
      rw [hskip, List.length_cons, Nat.succ_sub hlen, List.drop_succ_cons]
      exact ih hrest

/-- The retained entries are in the order of their ledger times, none later than `now`. -/
structure Dated (now : Nat) (s : Storage) : Prop where
  sorted : (History.shards s).items.Pairwise fun a b => a.recorded_at ≤ b.recorded_at
  past : ∀ entry ∈ (History.shards s).items, entry.recorded_at ≤ now

theorem Dated.mono {now later : Nat} {s : Storage} (h : Dated now s) (hle : now ≤ later) :
    Dated later s :=
  ⟨h.sorted, fun entry he => Nat.le_trans (h.past entry he) hle⟩

section Steps

variable {f : Frame Address} {s s' : Storage} {c : Call} {r : Reply} {evs : List Event}

/-- A decision is dated by the ledger time of its call. -/
theorem Effect.decisions_dated (he : Effect f s c r s' evs) :
    ∀ decision ∈ decisions evs, decision.recorded_at = f.timestamp := by
  intro decision hd
  rcases he.records_or_quiet with ⟨severity, cfg, result, hr⟩ | ⟨hquiet, -⟩
  · rw [hr.events, decisions_recordedEvents, List.mem_singleton] at hd
    subst hd
    exact (computeResult_inputs hr.computed).2.2.2.2
  · rw [decisions_of_quiet hquiet] at hd
    cases hd

theorem Effect.dated (he : Effect f s c r s' evs)
    (hs : (History.shards s).Sound SLAResult.outage_id 32) (hd : Dated f.timestamp s) :
    Dated f.timestamp s' := by
  have hsub := (he.items_suffix hs).sublist.trans (List.filter_sublist)
  have htimes := he.decisions_dated
  have hnew : (decisions evs).Pairwise fun a b => a.recorded_at ≤ b.recorded_at := by
    apply List.pairwise_of_forall_mem_list
    intro a ha b hb
    rw [htimes a ha, htimes b hb]
  constructor
  · refine List.Pairwise.sublist hsub (List.pairwise_append.mpr ⟨hd.sorted, hnew, ?_⟩)
    intro a ha b hb
    rw [htimes b hb]
    exact hd.past a ha
  · intro entry hentry
    rcases List.mem_append.mp (hsub.subset hentry) with hold | hnew
    · exact hd.past entry hold
    · exact Nat.le_of_eq (htimes entry hnew)

@[simp] theorem droppedPending_pending (s : Storage) :
    droppedPending s (.pending .operator) = none := by
  by_cases h : (s (.pending .operator)).isSome
  · simp [droppedPending, h, clearedPending]
  · have hnone : s (.pending .operator) = none := Option.not_isSome_iff_eq_none.mp h
    simp [droppedPending, hnone]

theorem projectionWith_droppedPending (s : Storage) (history : List SLAResult) :
    projectionWith (droppedPending s) history =
      { projectionWith s history with pendingOperator := none } := by
  by_cases h : (s (.pending .operator)).isSome
  · simp [droppedPending, h, projectionWith, clearedPending, customConfigs, isPaused,
      isConfigFrozen, retentionLimit, statsOf]
  · have hnone : s (.pending .operator) = none := Option.not_isSome_iff_eq_none.mp h
    simp [droppedPending, projectionWith, hnone]

theorem projectionWith_congr {s s' : Storage} (history : List SLAResult)
    (h : ∀ k, History.isHistoryKey k = false → isTelemetryKey k = false → k ≠ .stats →
      s' k = s k) :
    projectionWith s' history = { projectionWith s history with stats := statsOf s' } := by
  simp only [projectionWith, customConfigs, isPaused, isConfigFrozen, retentionLimit,
    h .admin rfl rfl (by simp), h .operator rfl rfl (by simp),
    h (.pending .admin) rfl rfl (by simp), h (.pending .operator) rfl rfl (by simp),
    h .config rfl rfl (by simp), h .customConfig rfl rfl (by simp), h .paused rfl rfl (by simp),
    h .freeze rfl rfl (by simp), h .retentionLimit rfl rfl (by simp)]

/-- A call that only works on the history leaves the rest of the projection. -/
theorem HistoryChange.projectionWith_eq {L : ShardedLog SLAResult Symbol}
    (h : HistoryChange s s' L) (history : List SLAResult) :
    projectionWith s' history = projectionWith s history := by
  rw [projectionWith_congr history fun k hk _ _ => h.other k hk]
  simp only [statsOf, h.other .stats rfl]
  rfl

/-- The events of a call that leaves the history alone update the rest. -/
theorem Effect.projection_of_quiet (he : Effect f s c r s' evs) (hc : c.onHistory = false)
    (history : List SLAResult) :
    projectionWith s' history = (projectionWith s history).fold evs := by
  cases he <;> simp [Call.onHistory] at hc
  case' operatorSet =>
    rw [Projection.fold_append, fold_droppedEvents (s := s) _ _ rfl,
      ← projectionWith_droppedPending]
  case' renounced =>
    rw [Projection.fold_append, fold_droppedEvents (s := s) _ _ rfl, projectionWith_droppedPending]
  case' adminProposed => rw [fold_adminSup]
  case' operatorProposed => rw [fold_opSup]
  case' customSet => split
  case' configSet stored => simp only [projectionWith, stored]
  all_goals simp [projectionWith, proposed, registered, clearedPending, customConfigs, isPaused,
      isConfigFrozen, retentionLimit, statsOf, Projection.apply]

/-- Every call but `initialize` changes the projection as its events say, while the tail has
room and the history is in the order of its ledger times. -/
theorem Effect.projection (he : Effect f s c r s' evs) (hc : c.isInitialize = false)
    (hx : HistoryExact s) (hd : Dated f.timestamp s)
    (hroom : History.tail s + (decisions evs).length < 2 ^ 32) :
    projectionWith s' (History.shards s').items =
      (projectionWith s (History.shards s).items).fold evs := by
  by_cases hon : c.onHistory = false
  · rw [he.shards_eq hon]
    exact he.projection_of_quiet hon _
  have hs : (History.shards s).Sound SLAResult.outage_id 32 := hx.exact.sound (by simp; omega)
  have hlen : (History.shards s).items.length = History.len s := ShardedLog.length_items hs
  have hread : History.readAllEntries s = (History.shards s).items :=
    History.readAllEntries_eq_items hs.bounded
  cases he <;> simp [Call.onHistory] at hon
  case initialized => simp [Call.isInitialize] at hc
  case replayed => rfl
  case recorded change =>
    rw [decisions_recordedEvents] at hroom
    rw [fold_recordedEvents, projectionWith_congr _ change.other, change.log,
      ShardedLog.items_record hs hx.exact.ordered hroom]
    simp [projectionWith, evicted, hlen, statsOf, change.stats]
  case pruned change _ =>
    rw [change.projectionWith_eq, change.log, ShardedLog.items_dropTo hs]
    rfl
  case keptAll => rfl
  case prunedByAge min_age _ _ _ _ change _ =>
    rw [change.projectionWith_eq, change.log, ShardedLog.items_rebuild, recent, hread]
    have hdrop := filter_ge_eq_drop SLAResult.recorded_at (f.timestamp - min_age) hd.sorted
    conv_lhs => rw [hdrop]
    rfl
  case retentionSet limit _ _ _ change _ =>
    rw [change.projectionWith_eq, change.log, ShardedLog.items_dropTo hs]
    by_cases hremoved : History.len s - limit > 0
    · rw [if_pos hremoved]
      rfl
    · have hzero : History.len s - limit = 0 := by omega
      rw [if_neg hremoved, History.shards_len, hzero]
      rfl

end Steps

end ApexChainx
