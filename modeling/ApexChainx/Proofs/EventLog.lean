import ApexChainx.Proofs.Projection
import ApexChainx.Proofs.Turns

/-!
# The event log over whole runs

Over every run in which `initialize` succeeds once, ledger times do not decrease and the `u32`
counters of the history do not wrap, the fold of the committed events is the state after every
call, and each recorded decision is committed once (`events_complete`).
-/

namespace ApexChainx

open Host Misc

/-! ## Whole runs -/

/-- The ledger times of a run do not decrease. -/
def NonDecreasing (txs : List ContractTx) : Prop :=
  txs.Pairwise fun a b => a.frame.timestamp ≤ b.frame.timestamp

/-- The arguments of the `initialize` that succeeded. -/
def LaunchedWith (sts : List ContractStep) (admin operator : Address) : Prop :=
  ∃ st ∈ sts, initializes st = true ∧ st.tx.call = .initializeContract admin operator

/-- The fold of the committed events, from the arguments of `initialize`, is the state. -/
def Projects (txs : List ContractTx) : Prop :=
  ∃ admin operator, LaunchedWith (steps txs) admin operator ∧
    (Projection.initial admin operator).fold (committed exec Store.empty txs) =
      projectionOf (after txs)

/-- The latest retained decision of the outage is of the generation the severity loads. -/
def Repeats (s : Storage) (outage_id severity : Symbol) : Prop :=
  ∃ prev, History.latestForOutage s outage_id = some prev ∧
    computeSeverityConfigHash severity s = .ok prev.config_version_hash

/-- A submission that succeeds commits nothing when it repeats a stored decision, and otherwise
one `sla_calc` followed by one `set_int` with the decision it returns. -/
def CommitsDecision (st : ContractStep) : Prop :=
  ∀ caller outage_id severity mttr result,
    st.tx.call = .calculateSla caller outage_id severity mttr →
    (st.outcome exec).reply = .ok (.decision result) →
      (Repeats st.pre outage_id severity → st.events exec = []) ∧
        (¬ Repeats st.pre outage_id severity → ∃ correlation_id, st.events exec =
          [.slaCalc severity result, .settleIntent severity result correlation_id])

/-- The committed events are a complete log of the state, after every call. -/
structure EventLog (txs : List ContractTx) : Prop where
  projects : ∀ before, before <+: txs → initializations before = 1 → Projects before
  decides : ∀ st ∈ steps txs, CommitsDecision st

/-- What one run keeps: the projection, the history and its dates. -/
structure Follows (sts : List ContractStep) (s : Storage) : Prop where
  launched : ∃ admin operator, LaunchedWith sts admin operator ∧
    (Projection.initial admin operator).fold (sts.flatMap (Step.events exec)) =
      projectionWith s (History.shards s).items
  exact : HistoryExact s
  tail : History.tail s ≤ (decisions (sts.flatMap (Step.events exec))).length
  dated : ∀ now, (∀ st ∈ sts, st.tx.frame.timestamp ≤ now) → Dated now s

theorem LaunchedWith.append {sts : List ContractStep} {admin operator : Address}
    (h : LaunchedWith sts admin operator) (st : ContractStep) :
    LaunchedWith (sts ++ [st]) admin operator := by
  obtain ⟨first, hmem, hfirst⟩ := h
  exact ⟨first, List.mem_append_left _ hmem, hfirst⟩

theorem follows_after {txs : List ContractTx} (hone : initializations txs = 1)
    (htimes : NonDecreasing txs) (hfew : (recorded txs).length < 2 ^ 32) :
    Follows (steps txs) (after txs) := by
  refine initialized_induction
    (P := fun sts s => (sts.map Step.tx).Pairwise (·.frame.timestamp ≤ ·.frame.timestamp) →
      (decisions (sts.flatMap (Step.events exec))).length < 2 ^ 32 → Follows sts s)
    ?_ ?_ ?_ txs hone (by rw [map_tx_trace]; exact htimes) hfew
  · intro past tx admin operator hnone hcall hinit _ _
    have hitems : (History.shards (initializedStorage Store.empty admin operator)).items = [] := by
      rw [shards_initialized]
      rfl
    refine ⟨⟨admin, operator, ⟨_, by simp, hinit, hcall⟩, ?_⟩, historyExact_initialized _ _, ?_, ?_⟩
    · rw [List.flatMap_append, hnone, hitems]
      simp [events_of_empty, projectionWith_initialized]
    · have htail := congrArg ShardedLog.tail (shards_initialized admin operator)
      exact Nat.le_trans (Nat.le_of_eq htail) (Nat.zero_le _)
    · intro now _
      exact ⟨by simp [hitems], by simp [hitems]⟩
  · intro past s tx r s' evs ih he hc hi hsorted hlt
    have hevents := events_of_invoke hi
    rw [List.map_append, List.pairwise_append] at hsorted
    obtain ⟨hpast, -, hlast⟩ := hsorted
    simp only [List.flatMap_append, List.flatMap_singleton, hevents, decisions_append,
      List.length_append] at hlt ⊢
    obtain ⟨⟨admin, operator, hlaunched, hfold⟩, hexact, htail, hdated⟩ := ih hpast (by omega)
    have hbefore : ∀ st ∈ past, st.tx.frame.timestamp ≤ tx.frame.timestamp := fun st hst =>
      hlast _ (List.mem_map_of_mem hst) _ (by simp)
    have hroom : History.tail s + (decisions evs).length < 2 ^ 32 := by omega
    have hnow := hdated _ hbefore
    obtain ⟨hexact', htail'⟩ := he.historyExact hexact hc hroom
    refine ⟨⟨admin, operator, hlaunched.append _, ?_⟩, hexact', ?_, ?_⟩
    · simp only [List.flatMap_append, List.flatMap_singleton, hevents]
      rw [Projection.fold_append, hfold]
      exact (he.projection hc hexact hnow hroom).symm
    · simp only [List.flatMap_append, List.flatMap_singleton, hevents, decisions_append,
        List.length_append]
      omega
    · intro now hnow'
      have hdone := he.dated (hexact.exact.sound (by simp; omega)) hnow
      exact hdone.mono (hnow' ⟨s, tx⟩ (by simp))
  · intro past s tx x ih hi hsorted hlt
    have hevents := events_of_invoke hi
    rw [List.map_append, List.pairwise_append] at hsorted
    simp only [List.flatMap_append, List.flatMap_singleton, hevents, List.append_nil] at hlt ⊢
    obtain ⟨⟨admin, operator, hlaunched, hfold⟩, hexact, htail, hdated⟩ := ih hsorted.1 hlt
    refine ⟨⟨admin, operator, hlaunched.append _, ?_⟩, hexact, ?_, ?_⟩
    · simpa [hevents] using hfold
    · simpa [hevents] using htail
    · intro now hnow
      exact hdated now fun st hst => hnow st (List.mem_append_left _ hst)

/-! ## The log is complete -/

/-- A decision that a run records publishes no clamp. -/
theorem recordedEvents_after {before : List ContractTx} {tx : ContractTx}
    (hone : initializations (before ++ [tx]) = 1)
    (hfew : (recorded (before ++ [tx])).length < 2 ^ 64) {s' : Storage} {r : Reply}
    {severity : Symbol} {result : SLAResult}
    (hi : invoke exec tx (after before) =
      ⟨s', recordedEvents tx.frame (after before) severity result, .ok r⟩) :
    recordedEvents tx.frame (after before) severity result =
      [.slaCalc severity result, .settleIntent severity result
        (generateCorrelationId result.outage_id tx.frame.sequence)] := by
  have hunclamped := (statsExact_after hone hfew).unclamped
  have hnone : (statsAfter (statsOf (after before)) result).2 = [] := by
    refine List.eq_nil_iff_forall_not_mem.mpr ?_
    intro ev hev
    have hclamp := statsAfter_clamps _ _ ev hev
    have hcommitted : ev ∈ committed exec Store.empty (before ++ [tx]) := by
      rw [committed_append, committed_cons, hi]
      simp [recordedEvents, hev]
    rw [hunclamped ev hcommitted] at hclamp
    cases hclamp
  rw [recordedEvents, hnone, List.nil_append]

theorem commitsDecision_after {before : List ContractTx} {tx : ContractTx}
    (hone : initializations (before ++ [tx]) ≤ 1)
    (hfew : (recorded (before ++ [tx])).length < 2 ^ 32) :
    CommitsDecision ⟨after before, tx⟩ := by
  intro caller outage_id severity mttr result hcall hreply
  obtain ⟨s', evs, he, hi⟩ := effect_of_reply (current_after before) hreply
  rw [events_of_invoke hi]
  rw [show tx.call = _ from hcall] at he
  cases he with
  | replayed _ _ config _ latest generation _ =>
    refine ⟨fun _ => rfl, fun hnot => (hnot ⟨_, latest, ?_⟩).elim⟩
    rw [generation]
    exact computeSeverityConfigHash_of_load config
  | recorded by_operator _ config _ admits change =>
    constructor
    · rintro ⟨prev, latest, hash⟩
      rw [computeSeverityConfigHash_of_load config] at hash
      exact absurd (Except.ok.inj hash).symm (admits prev latest).1
    · intro _
      have hlaunched : initializations before ≠ 0 := by
        intro hzero
        have hversion := by_operator.version
        rw [after_eq_empty hzero] at hversion
        cases hversion
      have hmono := initializations_le (List.prefix_append before [tx])
      have hroom : (recorded (before ++ [tx])).length < 2 ^ 64 := by omega
      exact ⟨_, recordedEvents_after (show initializations (before ++ [tx]) = 1 by omega) hroom hi⟩

/-- The committed events are a complete log of the state, over every run in which `initialize`
succeeds once, ledger times do not decrease and fewer than `2^32` decisions are recorded. -/
theorem events_complete (txs : List ContractTx) (hone : initializations txs = 1)
    (htimes : NonDecreasing txs) (hfew : (recorded txs).length < 2 ^ 32) : EventLog txs where
  projects := by
    intro before hpre hbefore
    have hlen := length_recorded_le hpre
    obtain ⟨⟨admin, operator, hlaunched, hfold⟩, -, -, -⟩ :=
      follows_after hbefore (htimes.sublist hpre.sublist) (by omega)
    refine ⟨admin, operator, hlaunched, ?_⟩
    rw [projectionOf, History.readAllEntries_eq_items (sound_after before).bounded]
    exact hfold
  decides := by
    intro st hst
    obtain ⟨before, tx, hpre, rfl⟩ := mem_trace.mp hst
    have hcount := initializations_le hpre
    have hlen := length_recorded_le hpre
    exact commitsDecision_after (by omega) (by omega)

theorem events_complete_oneDecision : EventLog oneDecision :=
  events_complete oneDecision (by decide) (by simp [NonDecreasing, oneDecision, launch, submitTen])
    (by decide)

/-! ## When the counters wrap

With a retention limit of one entry, an outage that is submitted in turn as critical and as high
is recorded at every turn. The `2^32`-th record wraps the tail to zero, and the window between
the counters is empty from then on. -/

/-- The severity of turn `i`. -/
def turnSeverity (i : Nat) : Symbol := if i % 2 = 0 then critical else high

/-- The configuration it holds. -/
def turnConfig (i : Nat) : SLAConfig := if i % 2 = 0 then ⟨15, 100, 750⟩ else ⟨30, 50, 750⟩

/-- The decision of turn `i`. -/
def turnDecision (i : Nat) : SLAResult :=
  if i % 2 = 0 then
    ⟨sampleOutage, .met, 10, 15, 1125, .rew, .excel, severityConfigHash (turnConfig i), 3⟩
  else ⟨sampleOutage, .met, 10, 30, 1500, .rew, .top, severityConfigHash (turnConfig i), 3⟩

/-- `n` turns. -/
def turns (n : Nat) : List ContractTx :=
  launchOne ++ (List.range n).map fun i => submitTen 3 (turnSeverity i)

theorem turns_succ (n : Nat) : turns (n + 1) = turns n ++ [submitTen 3 (turnSeverity n)] := by
  simp [turns, List.range_succ]

/-- The state after `n` turns. -/
structure Alternates (n : Nat) (s : Storage) : Prop where
  exact : HistoryExact s
  tail : History.tail s = n
  items : (History.shards s).items = if n = 0 then [] else [turnDecision (n - 1)]
  other : ∀ k, History.isHistoryKey k = false → isTelemetryKey k = false → k ≠ .stats →
    s k = after launchOne k

/-- Turn `i`, whose configuration and decision are those of its severity. -/
def turn (i : Nat) : Turn where
  severity := turnSeverity i
  cfg := turnConfig i
  result := turnDecision i
  bound := by
    have hmttr : (turnDecision i).mttr_minutes = 10 := by
      unfold turnDecision
      split <;> rfl
    rw [hmttr]
    decide
  config := by
    unfold turnSeverity turnConfig
    split <;> rfl
  computed := by
    unfold turnDecision turnConfig
    split <;> rfl

theorem turn_tx (i : Nat) : (turn i).tx = submitTen 3 (turnSeverity i) := by
  simp only [Turn.tx, turn, turnDecision]
  split <;> rfl

theorem turnDecision_fields (i : Nat) : (turnDecision i).outage_id = sampleOutage ∧
    (turnDecision i).config_version_hash = severityConfigHash (turnConfig i) := by
  unfold turnDecision
  split <;> exact ⟨rfl, rfl⟩

theorem turnConfig_hash_ne (n : Nat) :
    severityConfigHash (turnConfig n) ≠ severityConfigHash (turnConfig (n + 1)) := by
  have hne : severityConfigHash ⟨15, 100, 750⟩ ≠ severityConfigHash ⟨30, 50, 750⟩ := by decide
  rcases Nat.mod_two_eq_zero_or_one n with h | h
  · have hnext : (n + 1) % 2 ≠ 0 := by omega
    simpa [turnConfig, h, hnext] using hne
  · have hnext : (n + 1) % 2 = 0 := by omega
    simpa [turnConfig, h, hnext] using hne.symm

theorem alternates_iff {n : Nat} {s : Storage} :
    Alternates n s ↔ Turned n (if n = 0 then none else some (turnDecision (n - 1))) s := by
  have hitems : (if n = 0 then none else some (turnDecision (n - 1))).toList =
      if n = 0 then [] else [turnDecision (n - 1)] := by
    split <;> rfl
  exact ⟨fun h => ⟨h.exact, h.tail, h.items.trans hitems.symm, h.other⟩,
    fun h => ⟨h.exact, h.tail, h.items.trans hitems, h.other⟩⟩

section Turn

variable {n : Nat} {s : Storage}

/-- The stored decision is of the other severity, so the next turn is recorded. -/
theorem Alternates.records (h : Alternates n s) :
    ∃ s', Recorded s (turnDecision n) s' ∧ invoke exec (submitTen 3 (turnSeverity n)) s =
      ⟨s', recordedEvents ⟨[⟨2⟩], 3, 3⟩ s (turnSeverity n) (turnDecision n),
        .ok (.decision (turnDecision n))⟩ := by
  rw [← turn_tx]
  obtain ⟨s', hi, hr⟩ := (alternates_iff.mp h).records (turn n) (by
    intro prev hprev _
    cases n with
    | zero => cases hprev
    | succ m =>
      obtain rfl : turnDecision m = prev := by simpa using hprev
      rw [(turnDecision_fields m).2]
      exact turnConfig_hash_ne m)
  exact ⟨s', hr.change, hi⟩

theorem Alternates.succ (h : Alternates n s) (hn : n + 1 < 2 ^ 32) {s' : Storage}
    (change : Recorded s (turnDecision n) s') : Alternates (n + 1) s' :=
  alternates_iff.mpr ((alternates_iff.mp h).succ hn change)

end Turn

/-- Every turn is recorded while the tail has room, and no event of a turn sets the limit. -/
theorem alternates_after {n : Nat} (hn : n < 2 ^ 32) :
    Alternates n (after (turns n)) ∧
      ∀ p : Projection, (p.fold (committed exec Store.empty (turns n))).retentionLimit = 1 := by
  induction n with
  | zero =>
    have hevents : committed exec Store.empty (turns 0) = [.retLim ⟨1⟩ 1] := by decide
    rw [hevents]
    exact ⟨alternates_iff.mpr turned_zero, fun _ => rfl⟩
  | succ n ih =>
    obtain ⟨h, hlimit⟩ := ih (by omega)
    obtain ⟨s', change, hi⟩ := h.records
    rw [turns_succ, after_append_cons, committed_append, committed_cons, hi]
    refine ⟨h.succ hn change, ?_⟩
    intro p
    simpa [committed, trace, fold_recordedEvents] using hlimit p

theorem initializations_turns (n : Nat) : initializations (turns n) = 1 := by
  have hnone : ∀ (s : Storage) (l : List Nat),
      (trace exec s (l.map fun i => submitTen 3 (turnSeverity i))).countP initializes = 0 := by
    intro s l
    refine List.countP_eq_zero.mpr ?_
    intro st hst
    have hmem := List.mem_map_of_mem (f := Step.tx) hst
    rw [map_tx_trace] at hmem
    obtain ⟨i, -, htx⟩ := List.mem_map.mp hmem
    simp [initializes, ← htx, submitTen, Call.isInitialize]
  have hlaunch : (trace exec Store.empty launchOne).countP initializes = 1 := by decide
  rw [initializations, steps, turns, trace_append, List.countP_append, hnone, hlaunch]

theorem nonDecreasing_turns (n : Nat) : NonDecreasing (turns n) := by
  refine List.pairwise_append.mpr ⟨by decide, ?_, ?_⟩
  · refine List.pairwise_map.mpr (List.pairwise_of_forall ?_)
    intro _ _
    exact Nat.le_refl 3
  · intro a ha b hb
    obtain ⟨i, -, rfl⟩ := List.mem_map.mp hb
    have hbefore : ∀ tx ∈ launchOne, tx.frame.timestamp ≤ 3 := by decide
    exact hbefore a ha

theorem evicted_ne_nil {limit : Nat} (hl : 0 < limit) (history : List SLAResult)
    (decision : SLAResult) : evicted limit (history ++ [decision]) ≠ [] := by
  unfold evicted
  cases history with
  | nil => simp [Nat.not_lt_of_le hl]
  | cons first rest => split <;> simp

/-- Once the counters have wrapped, the history reads empty while the events say it holds the
last decision. -/
theorem wrapped_counters_lose_history :
    initializations (turns (2 ^ 32)) = 1 ∧ NonDecreasing (turns (2 ^ 32)) ∧
      ¬ EventLog (turns (2 ^ 32)) := by
  refine ⟨initializations_turns _, nonDecreasing_turns _, ?_⟩
  intro hlog
  obtain ⟨n, hn⟩ : ∃ n, n + 1 = 2 ^ 32 := ⟨2 ^ 32 - 1, by omega⟩
  obtain ⟨admin, operator, -, hfold⟩ := hlog.projects _ List.prefix_rfl (initializations_turns _)
  obtain ⟨h, hlimit⟩ := alternates_after (show n < 2 ^ 32 by omega)
  obtain ⟨s', change, hi⟩ := h.records
  rw [← hn, turns_succ, after_append_cons, committed_append, committed_cons, hi] at hfold
  -- the window between the counters is empty
  have htail : History.tail s' = 0 := by
    rw [← History.shards_tail, change.log, ShardedLog.tail_record, History.shards_tail, h.tail, hn]
    simp [wrap]
  have hempty : History.readAllEntries s' = [] := by
    rw [History.readAllEntries_eq_items (by omega)]
    simp [ShardedLog.items, ShardedLog.window, History.len, htail]
  have hhistory := congrArg Projection.history hfold
  simp only [Projection.fold_append, fold_recordedEvents, hlimit] at hhistory
  have hread : (projectionOf (final exec s' [])).history = [] := hempty
  rw [hread] at hhistory
  exact evicted_ne_nil Nat.zero_lt_one _ _ hhistory

end ApexChainx
