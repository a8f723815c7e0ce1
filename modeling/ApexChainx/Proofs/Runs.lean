import ApexChainx.Proofs.Effects

/-!
# Runs as sequences of effects

A run from a fresh deployment is a sequence of effects and of refused calls. The frame of every
entry point (`Effect.frame`) and the induction over effects (`effect_induction`) carry the
invariants of the contract from one call to whole runs.
-/

namespace ApexChainx

open Host Misc

/-! ## Frames -/

/-- The keys a successful call may change. -/
def Call.touches : Call → StorageKey → Bool
  | .initializeContract _ _, k =>
    k ∈ [.admin, .operator, .paused, .stats, .severityCalcCounts, .severityViolCounts,
      .lastCalculationTs, .lastViolationTs, .histHead, .histTail, .historyLen, .config,
      .configCount, .customConfig, .storageVersion]
  | .migrate _, _ => false
  | .setOperator _ _, k => k ∈ [.operator, .pending .operator, .pendingTs .operator]
  | .proposeAdmin _ _, k | .cancelAdminProposal _, k => k ∈ [.pending .admin, .pendingTs .admin]
  | .acceptAdmin _, k => k ∈ [.admin, .pending .admin, .pendingTs .admin]
  | .proposeOperator _ _, k | .cancelOperatorProposal _, k =>
    k ∈ [.pending .operator, .pendingTs .operator]
  | .acceptOperator _, k => k ∈ [.operator, .pending .operator, .pendingTs .operator]
  | .renounceAdmin _, k =>
    k ∈ [.adminRenounced, .admin, .pending .admin, .pendingTs .admin, .pending .operator,
      .pendingTs .operator]
  | .pause _ _, k | .unpause _, k => k ∈ [.paused, .pauseInfo]
  | .freezeConfig _, k | .unfreezeConfig _, k => k ∈ [.freeze]
  | .setConfig _ _ _ _ _, k => k ∈ [.config, .configCount, .lastCfgUpdate, .configRegistry]
  | .setCustomSeverity _ _ _ _ _, k => k ∈ [.customConfig, .lastCfgUpdate, .configRegistry]
  | .removeCustomSeverity _ _, k => k ∈ [.customConfig]
  | .calculateSla _ _ _ _, k => History.isHistoryKey k || isTelemetryKey k || k = .stats
  | .pruneHistory _ _, k | .pruneHistoryByAge _ _, k => History.isHistoryKey k
  | .setRetentionLimit _ _, k => History.isHistoryKey k || k = .retentionLimit

/-- The call that accepts a proposal for the role. -/
def Role.accept : Role → Address → Call
  | .admin, caller => .acceptAdmin caller
  | .operator, caller => .acceptOperator caller

/-- The key that holds the address in the role. -/
def Role.holder : Role → StorageKey
  | .admin => .admin
  | .operator => .operator

section Frame

variable {f : Frame Address} {s s' : Storage} {c : Call} {r : Reply} {evs : List Event}

/-- A successful call keeps every key it does not touch. -/
theorem Effect.frame (h : Effect f s c r s' evs) {k : StorageKey} (hk : c.touches k = false) :
    s' k = s k := by
  have hdropped : ∀ s : Storage, k ≠ .pending .operator → k ≠ .pendingTs .operator →
      droppedPending s k = s k := by
    intro s h₁ h₂
    by_cases hp : (s (.pending .operator)).isSome <;>
      simp [droppedPending, clearedPending, hp, h₁, h₂]
  cases h <;> simp [Call.touches] at hk
  case recorded change => exact change.other k hk.1.1 hk.1.2 hk.2
  case pruned change _ => exact change.other k hk
  case prunedByAge change _ => exact change.other k hk
  case retentionSet change _ => rw [change.other k hk.1, Store.set_other _ _ hk.2]
  case operatorSet => rw [Store.set_other _ _ hk.1, hdropped _ hk.2.1 hk.2.2]
  case renounced => rw [hdropped _ hk.2.2.2.2.1 hk.2.2.2.2.2]; simp [clearedPending, hk]
  all_goals simp [initializedStorage, proposed, clearedPending, registered, hk]

/-- The standing admin keeps standing on the current version: only `initialize` writes the
version, and the calls that write the admin require it. -/
theorem Effect.current (h : Effect f s c r s' evs) (hc : Current s) : Current s' := by
  intro admin hadmin
  by_cases hversion : c.touches .storageVersion = true
  · cases h <;> simp [Call.touches, History.isHistoryKey, isTelemetryKey] at hversion
    simp [initializedStorage]
  · rw [h.frame (by simpa using hversion)]
    by_cases htouched : c.touches .admin = true
    · cases h <;> simp [Call.touches, History.isHistoryKey, isTelemetryKey] at htouched hversion
      case adminAccepted accepts => exact accepts.version
      case renounced by_admin _ => exact by_admin.version
    · rw [h.frame (by simpa using htouched)] at hadmin
      exact hc admin hadmin

end Frame

/-! ## Steps of a run -/

/-- A step of a run of the contract. -/
abbrev ContractStep := Step StorageKey.Val Address Call

/-- The steps of a run from a fresh deployment. -/
abbrev steps (txs : List ContractTx) : List ContractStep := trace exec Store.empty txs

/-- The call is `initialize`. -/
def Call.isInitialize : Call → Bool
  | .initializeContract _ _ => true
  | _ => false

/-- The call is a `calculate_sla`. -/
def Call.isCalculation : Call → Bool
  | .calculateSla _ _ _ _ => true
  | _ => false

/-- The call returned to its caller without an error. -/
def succeeds (st : ContractStep) : Bool := (st.outcome exec).reply.isOk

/-- A successful `initialize`. -/
def initializes (st : ContractStep) : Bool := st.tx.call.isInitialize && succeeds st

/-- How often `initialize` succeeded in a run. -/
def initializations (txs : List ContractTx) : Nat := (steps txs).countP initializes

/-- The decision a `sla_calc` event records. -/
def Event.decision? : Event → Option SLAResult
  | .slaCalc _ decision => some decision
  | _ => none

/-- The decisions recorded in a list of events. -/
def decisions (evs : List Event) : List SLAResult := evs.filterMap Event.decision?

/-- The decisions a run recorded. -/
def recorded (txs : List ContractTx) : List SLAResult :=
  decisions (committed exec Store.empty txs)

@[simp] theorem decisions_nil : decisions [] = [] := rfl

@[simp] theorem decisions_append (evs evs' : List Event) :
    decisions (evs ++ evs') = decisions evs ++ decisions evs' := List.filterMap_append

theorem decisions_statsAfter (stats : SLAStats) (result : SLAResult) :
    decisions (statsAfter stats result).2 = [] := by
  have hcounter : ∀ counter value, decisions (bumpCounter counter value).2 = [] := by
    intro counter value
    unfold bumpCounter
    split <;> rfl
  have htotal : ∀ counter value amount, decisions (bumpTotal counter value amount).2 = [] := by
    intro counter value amount
    unfold bumpTotal
    split <;> rfl
  unfold statsAfter
  split <;> simp [hcounter, htotal]

/-- A stored decision is recorded once. -/
@[simp] theorem decisions_recordedEvents (f : Frame Address) (s : Storage) (severity : Symbol)
    (result : SLAResult) : decisions (recordedEvents f s severity result) = [result] := by
  simp [recordedEvents, decisions_statsAfter]
  rfl

/-- What a successful `initialize` does. -/
theorem Effect.of_initialize {f : Frame Address} {s s' : Storage} {c : Call} {r : Reply}
    {evs : List Event} (h : Effect f s c r s' evs) (hc : c.isInitialize = true) :
    ∃ admin operator, c = .initializeContract admin operator ∧ s .admin = none ∧
      admin ∈ f.auths ∧ operator ∈ f.auths ∧ s' = initializedStorage s admin operator ∧
      evs = [] := by
  cases h <;> simp [Call.isInitialize] at hc
  case initialized absent signed consented => exact ⟨_, _, rfl, absent, signed, consented, rfl, rfl⟩

/-- The event is about a decision: stored, settled, refused as a duplicate, or clamped. -/
def Event.onDecision : Event → Bool
  | .slaCalc _ _ | .settleIntent _ _ _ | .dupInput _ _ _ | .statsSat _ _ _ => true
  | _ => false

theorem decisions_of_quiet {evs : List Event} (h : ∀ ev ∈ evs, ev.onDecision = false) :
    decisions evs = [] := by
  refine List.filterMap_eq_nil_iff.mpr ?_
  intro ev hev
  have hquiet := h ev hev
  cases ev <;> simp_all [Event.onDecision, Event.decision?]

/-- What a call that stores a fresh decision has checked, and what it leaves. -/
structure Records (f : Frame Address) (s : Storage) (c : Call) (r : Reply) (s' : Storage)
    (evs : List Event) (severity : Symbol) (cfg : SLAConfig) (result : SLAResult) : Prop where
  bound : result.mttr_minutes ≤ maxMttr
  config : loadConfig severity s = .ok cfg
  computed : computeResult result.outage_id result.mttr_minutes cfg (severityConfigHash cfg)
    f.timestamp = .ok result
  admits : Admits s result.outage_id (severityConfigHash cfg)
  change : Recorded s result s'
  events : evs = recordedEvents f s severity result
  reply : r = .decision result
  call : ∃ caller, ByOperator f s caller ∧
    c = .calculateSla caller result.outage_id severity result.mttr_minutes

theorem droppedEvents_quiet (s : Storage) (caller : Address) :
    ∀ ev ∈ droppedEvents s caller, ev.onDecision = false := by
  unfold droppedEvents
  split <;> simp [Event.onDecision]

/-- A call other than `calculate_sla` and `initialize` touches no counter. -/
theorem Call.touches_counters {c : Call} (hcalc : c.isCalculation = false)
    (hinit : c.isInitialize = false) {k : StorageKey} (hk : k = .stats ∨ isTelemetryKey k = true) :
    c.touches k = false := by
  cases c <;> simp only [Call.isCalculation, Call.isInitialize, Bool.true_eq_false] at hcalc hinit
  all_goals
    rcases hk with rfl | hk
    · simp [Call.touches, History.isHistoryKey]
    · cases k <;> simp [isTelemetryKey] at hk <;> simp [Call.touches, History.isHistoryKey]

/-- A successful call either stores one fresh decision, or says nothing about decisions and,
unless it is `initialize`, keeps the statistics and the telemetry. -/
theorem Effect.records_or_quiet {f : Frame Address} {s s' : Storage} {c : Call} {r : Reply}
    {evs : List Event} (h : Effect f s c r s' evs) :
    (∃ severity cfg result, Records f s c r s' evs severity cfg result) ∨
      (∀ ev ∈ evs, ev.onDecision = false) ∧ (c.isInitialize = false →
        ∀ k, k = .stats ∨ isTelemetryKey k = true → s' k = s k) := by
  by_cases htouched : c.touches .stats = true
  · cases h <;> simp [Call.touches, History.isHistoryKey, isTelemetryKey] at htouched
    case initialized => exact .inr ⟨by simp, by simp [Call.isInitialize]⟩
    case replayed => exact .inr ⟨by simp, fun _ _ _ => rfl⟩
    case recorded severity mttr cfg result by_operator bound config computed admits change =>
      obtain ⟨rfl, rfl, -⟩ := computeResult_inputs computed
      exact .inl ⟨severity, cfg, result, bound, config, computed, admits, change, rfl, rfl, _,
        by_operator, rfl⟩
  · have hcalc : c.isCalculation = false := by
      cases c <;> first | rfl | simp [Call.touches] at htouched
    refine .inr ⟨?_, fun hinit k hk => h.frame (Call.touches_counters hcalc hinit hk)⟩
    cases h <;> simp [Call.touches, History.isHistoryKey, isTelemetryKey] at htouched
    case customSet => split <;> simp [Event.onDecision]
    case retentionSet => split <;> simp [Event.onDecision]
    case operatorSet =>
      simpa [or_imp, forall_and, Event.onDecision] using droppedEvents_quiet s _
    case renounced =>
      simpa [or_imp, forall_and, Event.onDecision] using droppedEvents_quiet s _
    all_goals simp [or_imp, forall_and, Event.onDecision]

section Steps

/-- Every call of a run is an effect or is refused. -/
theorem invoke_effect {s : Storage} (hc : Current s) (tx : ContractTx) :
    (∃ r s' evs, Effect tx.frame s tx.call r s' evs ∧ invoke exec tx s = ⟨s', evs, .ok r⟩) ∨
      ∃ x, invoke exec tx s = ⟨s, [], .error x⟩ := by
  rcases invoke_cases exec tx s with ⟨r, env, hr, hi⟩ | hfail
  · exact .inl ⟨r, _, _, returns_effect hc hr, hi⟩
  · exact .inr hfail

/-- A successful reply is the reply of an effect. -/
theorem effect_of_reply {s : Storage} (hc : Current s) {tx : ContractTx} {r : Reply}
    (h : (invoke exec tx s).reply = .ok r) :
    ∃ s' evs, Effect tx.frame s tx.call r s' evs ∧ invoke exec tx s = ⟨s', evs, .ok r⟩ := by
  obtain ⟨env, hr, hi⟩ := returns_of_reply h
  exact ⟨_, _, returns_effect hc hr, hi⟩

theorem current_empty : Current Store.empty := by
  intro admin h
  cases h

theorem current_after (txs : List ContractTx) : Current (after txs) := by
  refine invariant_run current_empty ?_ txs
  intro s tx hc
  rcases invoke_effect hc tx with ⟨r, s', evs, he, hi⟩ | ⟨x, hi⟩
  · rw [hi]
    exact he.current hc
  · rw [hi]
    exact hc

theorem succeeds_of_ok {s s' : Storage} {tx : ContractTx} {r : Reply} {evs : List Event}
    (hi : invoke exec tx s = ⟨s', evs, .ok r⟩) : succeeds ⟨s, tx⟩ = true := by
  simp only [succeeds, Step.outcome, hi]
  rfl

theorem succeeds_of_returns {s : Storage} {tx : ContractTx} {r : Reply} {env' : ContractEnv}
    (h : (exec tx.call).Returns tx.frame ⟨s, [], []⟩ r env') : succeeds ⟨s, tx⟩ = true :=
  succeeds_of_ok (invoke_of_returns h)

theorem not_succeeds_of_refused {s : Storage} {tx : ContractTx} {x : Fault SLAError}
    (hi : invoke exec tx s = ⟨s, [], .error x⟩) : succeeds ⟨s, tx⟩ = false := by
  simp only [succeeds, Step.outcome, hi]
  rfl

/-- A call that succeeds is a program that returned. -/
theorem returns_of_succeeds {s : Storage} {tx : ContractTx} (h : succeeds ⟨s, tx⟩ = true) :
    ∃ r env, (exec tx.call).Returns tx.frame ⟨s, [], []⟩ r env ∧
      invoke exec tx s = ⟨env.storage, env.events, .ok r⟩ := by
  rcases invoke_cases exec tx s with hreturns | ⟨x, hi⟩
  · exact hreturns
  · simp only [succeeds, Step.outcome, hi, Except.isOk, Except.toBool, Bool.false_eq_true] at h

/-- A call that succeeds is an effect. -/
theorem effect_of_succeeds {s : Storage} (hc : Current s) {tx : ContractTx}
    (h : succeeds ⟨s, tx⟩ = true) :
    ∃ r s' evs, Effect tx.frame s tx.call r s' evs ∧ invoke exec tx s = ⟨s', evs, .ok r⟩ := by
  obtain ⟨r, env, hr, hi⟩ := returns_of_succeeds h
  exact ⟨r, _, _, returns_effect hc hr, hi⟩

/-- What holds of a fresh deployment, and is kept by every effect and by every refused call,
holds of every run. -/
theorem effect_induction {P : List ContractStep → Storage → Prop} (h₀ : P [] Store.empty)
    (heffect : ∀ past s tx r s' evs, Current s → P past s →
      Effect tx.frame s tx.call r s' evs → invoke exec tx s = ⟨s', evs, .ok r⟩ →
      P (past ++ [⟨s, tx⟩]) s')
    (hrefused : ∀ past s tx x, P past s → invoke exec tx s = ⟨s, [], .error x⟩ →
      P (past ++ [⟨s, tx⟩]) s)
    (txs : List ContractTx) : P (steps txs) (after txs) := by
  have hboth : Current (after txs) ∧ P (steps txs) (after txs) := by
    refine run_induction (P := fun past cur => Current cur ∧ P past cur) ⟨current_empty, h₀⟩ ?_ txs
    rintro past s tx ⟨hc, hP⟩
    rcases invoke_effect hc tx with ⟨r, s', evs, he, hi⟩ | ⟨x, hi⟩
    · rw [hi]
      exact ⟨he.current hc, heffect past s tx r s' evs hc hP he hi⟩
    · rw [hi]
      exact ⟨hc, hrefused past s tx x hP hi⟩
  exact hboth.2

/-- The state after one more call. -/
theorem after_concat (txs : List ContractTx) (tx : ContractTx) :
    after (txs ++ [tx]) = (invoke exec tx (after txs)).storage := final_append ..

/-- The same induction over the calls that follow a run, with the states they reach at hand. -/
theorem stretch_induction (txs : List ContractTx) {P : List ContractTx → Storage → Prop}
    (h₀ : P [] (after txs))
    (heffect : ∀ later tx r s' evs, P later (after (txs ++ later)) →
      Effect tx.frame (after (txs ++ later)) tx.call r s' evs →
      invoke exec tx (after (txs ++ later)) = ⟨s', evs, .ok r⟩ → P (later ++ [tx]) s')
    (hrefused : ∀ later tx x, P later (after (txs ++ later)) →
      invoke exec tx (after (txs ++ later)) = ⟨after (txs ++ later), [], .error x⟩ →
      P (later ++ [tx]) (after (txs ++ later)))
    (later : List ContractTx) : P later (after (txs ++ later)) := by
  induction later using List.reverseRecOn with
  | nil => simpa using h₀
  | append_singleton later tx ih =>
    rw [← List.append_assoc, after_concat]
    rcases invoke_effect (current_after (txs ++ later)) tx with ⟨r, s', evs, he, hi⟩ | ⟨x, hi⟩
    · rw [hi]
      exact heffect later tx r s' evs ih he hi
    · rw [hi]
      exact hrefused later tx x ih hi

/-- The same induction, from a fresh deployment. -/
theorem after_induction {P : List ContractTx → Storage → Prop} (h₀ : P [] Store.empty)
    (heffect : ∀ txs tx r s' evs, P txs (after txs) →
      Effect tx.frame (after txs) tx.call r s' evs →
      invoke exec tx (after txs) = ⟨s', evs, .ok r⟩ → P (txs ++ [tx]) s')
    (hrefused : ∀ txs tx x, P txs (after txs) →
      invoke exec tx (after txs) = ⟨after txs, [], .error x⟩ → P (txs ++ [tx]) (after txs))
    (txs : List ContractTx) : P txs (after txs) :=
  stretch_induction [] h₀ heffect hrefused txs

/-- The last step of a stretch of a run. -/
theorem trace_after_concat (txs later : List ContractTx) (tx : ContractTx) :
    trace exec (after txs) (later ++ [tx]) =
      trace exec (after txs) later ++ [⟨after (txs ++ later), tx⟩] := by
  have hmid : final exec (after txs) later = after (txs ++ later) := (final_append ..).symm
  rw [trace_append, hmid]
  rfl

/-- On a fresh deployment only `initialize` succeeds. -/
theorem effect_of_empty {f : Frame Address} {c : Call} {r : Reply} {s' : Storage}
    {evs : List Event} (h : Effect f Store.empty c r s' evs) :
    ∃ admin operator, c = .initializeContract admin operator ∧
      s' = initializedStorage Store.empty admin operator ∧ evs = [] := by
  have no_admin : ∀ caller, ¬ ByAdmin f Store.empty caller := fun _ h => nomatch h.version
  have no_operator : ∀ caller, ¬ ByOperator f Store.empty caller := fun _ h => nomatch h.version
  have no_pending : ∀ role caller, ¬ Accepts f Store.empty role caller :=
    fun _ _ h => nomatch h.version
  cases h
  case initialized => exact ⟨_, _, rfl, rfl, rfl⟩
  case migrateCurrent admin _ => cases admin
  case adminAccepted accepts => exact (no_pending _ _ accepts).elim
  case operatorAccepted accepts => exact (no_pending _ _ accepts).elim
  case replayed by_operator _ _ _ _ _ _ => exact (no_operator _ by_operator).elim
  case recorded by_operator _ _ _ _ _ => exact (no_operator _ by_operator).elim
  all_goals exact (no_admin _ (by assumption)).elim

theorem initializes_of_ok {s : Storage} {tx : ContractTx} {o : Outcome StorageKey.Val Event
    SLAError Reply} {r : Reply} (hi : invoke exec tx s = o) (hr : o.reply = .ok r) :
    initializes ⟨s, tx⟩ = tx.call.isInitialize := by
  simp only [initializes, succeeds, Step.outcome, hi, hr]
  cases tx.call.isInitialize <;> rfl

theorem not_initializes_of_refused {s : Storage} {tx : ContractTx} {x : Fault SLAError}
    (hi : invoke exec tx s = ⟨s, [], .error x⟩) : initializes ⟨s, tx⟩ = false := by
  simp only [initializes, succeeds, Step.outcome, hi]
  cases tx.call.isInitialize <;> rfl

theorem events_of_invoke {s s' : Storage} {tx : ContractTx} {evs : List Event}
    {reply : Except (Fault SLAError) Reply} (hi : invoke exec tx s = ⟨s', evs, reply⟩) :
    Step.events exec ⟨s, tx⟩ = evs := by
  simp only [Step.events, Step.outcome, hi]

theorem post_of_invoke {s s' : Storage} {tx : ContractTx} {evs : List Event}
    {reply : Except (Fault SLAError) Reply} (hi : invoke exec tx s = ⟨s', evs, reply⟩) :
    Step.post exec ⟨s, tx⟩ = s' := by
  simp only [Step.post, Step.outcome, hi]

/-- Until `initialize` succeeds a run leaves the deployment as it was. -/
theorem after_eq_empty {txs : List ContractTx} (h : initializations txs = 0) :
    after txs = Store.empty := by
  refine effect_induction (P := fun past s => past.countP initializes = 0 → s = Store.empty)
    (fun _ => rfl) ?_ ?_ txs h
  · intro past s tx r s' evs _ hs he hi hzero
    simp only [List.countP_append, List.countP_singleton, initializes_of_ok hi rfl] at hzero
    obtain rfl := hs (by omega)
    obtain ⟨_, _, hcall, -⟩ := effect_of_empty he
    simp [hcall, Call.isInitialize] at hzero
  · intro past s tx x hs _ hzero
    simp only [List.countP_append] at hzero
    exact hs (by omega)

/-- The induction over a run in which `initialize` succeeds once: what that call leaves is a
fixed storage, and no effect after it is another `initialize`. -/
theorem initialized_induction {P : List ContractStep → Storage → Prop}
    (hinit : ∀ past tx admin operator, past.flatMap (Step.events exec) = [] →
      tx.call = .initializeContract admin operator → initializes ⟨Store.empty, tx⟩ = true →
      P (past ++ [⟨Store.empty, tx⟩]) (initializedStorage Store.empty admin operator))
    (heffect : ∀ past s tx r s' evs, P past s → Effect tx.frame s tx.call r s' evs →
      tx.call.isInitialize = false → invoke exec tx s = ⟨s', evs, .ok r⟩ →
      P (past ++ [⟨s, tx⟩]) s')
    (hrefused : ∀ past s tx x, P past s → invoke exec tx s = ⟨s, [], .error x⟩ →
      P (past ++ [⟨s, tx⟩]) s)
    (txs : List ContractTx) (hone : initializations txs = 1) : P (steps txs) (after txs) := by
  have hboth := effect_induction
    (P := fun past s =>
      (past.countP initializes = 0 → s = Store.empty ∧ past.flatMap (Step.events exec) = []) ∧
        (past.countP initializes = 1 → P past s)) ⟨fun _ => ⟨rfl, rfl⟩, by simp⟩ ?_ ?_ txs
  · exact hboth.2 hone
  · rintro past s tx r s' evs - ⟨hzero, hP⟩ he hi
    have hstep := initializes_of_ok hi rfl
    cases hc : tx.call.isInitialize with
    | false =>
      rw [hc] at hstep
      simp only [List.countP_append, List.countP_singleton, hstep]
      refine ⟨?_, fun h => heffect past s tx r s' evs (hP (by simpa using h)) he hc hi⟩
      intro h
      -- nothing but `initialize` succeeds before the first one
      obtain ⟨rfl, -⟩ := hzero (by simpa using h)
      obtain ⟨admin, operator, hcall, -⟩ := effect_of_empty he
      simp [hcall, Call.isInitialize] at hc
    | true =>
      rw [hc] at hstep
      simp only [List.countP_append, List.countP_singleton, hstep]
      refine ⟨fun h => by simp at h, ?_⟩
      intro h
      obtain ⟨rfl, hnone⟩ := hzero (by simpa using h)
      obtain ⟨admin, operator, hcall, rfl, -⟩ := effect_of_empty he
      exact hinit past tx admin operator hnone hcall hstep
  · rintro past s tx x ⟨hzero, hP⟩ hi
    have hstep := not_initializes_of_refused hi
    have hevents := events_of_invoke hi
    simp only [List.countP_append, List.countP_singleton, hstep, List.flatMap_append]
    refine ⟨?_, fun h => hrefused past s tx x (hP (by simpa using h)) hi⟩
    intro h
    obtain ⟨hs, hnone⟩ := hzero (by simpa using h)
    exact ⟨hs, by simp [hnone, hevents]⟩

/-- `initialize`, like a call that fails, commits no event. -/
theorem events_of_empty (tx : ContractTx) : Step.events exec ⟨Store.empty, tx⟩ = [] := by
  rcases invoke_effect current_empty tx with ⟨r, s', evs, he, hi⟩ | ⟨x, hi⟩
  · obtain ⟨_, _, -, -, rfl⟩ := effect_of_empty he
    exact events_of_invoke hi
  · exact events_of_invoke hi

/-- The same induction, for what depends on the committed events and the storage only. -/
theorem committed_induction {P : List Event → Storage → Prop}
    (hinit : ∀ admin operator, P [] (initializedStorage Store.empty admin operator))
    (heffect : ∀ evs s f c r s' new, P evs s → Effect f s c r s' new →
      c.isInitialize = false → P (evs ++ new) s')
    (txs : List ContractTx) (hone : initializations txs = 1) :
    P (committed exec Store.empty txs) (after txs) := by
  refine initialized_induction (P := fun past s => P (past.flatMap (Step.events exec)) s)
    ?_ ?_ ?_ txs hone
  · intro past tx admin operator hnone hcall _
    rw [List.flatMap_append, hnone]
    simpa [events_of_empty] using hinit admin operator
  · intro past s tx r s' evs hP he hc hi
    simpa [events_of_invoke hi] using heffect _ s _ _ r s' evs hP he hc
  · intro past s tx x hP hi
    simpa [events_of_invoke hi] using hP

end Steps

/-! ## Prefixes of a run -/

theorem initializations_le {before txs : List ContractTx} (h : before <+: txs) :
    initializations before ≤ initializations txs := by
  obtain ⟨later, rfl⟩ := h
  simp only [initializations, steps, trace_append, List.countP_append]
  omega

theorem length_recorded_le {before txs : List ContractTx} (h : before <+: txs) :
    (recorded before).length ≤ (recorded txs).length := by
  obtain ⟨later, rfl⟩ := h
  simp only [recorded, committed_append, decisions_append, List.length_append]
  omega

theorem recorded_append_singleton (txs : List ContractTx) (tx : ContractTx) :
    recorded (txs ++ [tx]) = recorded txs ++ decisions (invoke exec tx (after txs)).events := by
  simp only [recorded, committed_append, committed_singleton, decisions_append]

/-- What holds of the first calls of a run, for every number of them, holds of its prefixes. -/
theorem forall_front_of_take {P : List ContractTx → Prop} {txs : List ContractTx}
    (h : ∀ n, n ≤ txs.length → P (txs.take n)) {before : List ContractTx} (hpre : before <+: txs) :
    P before := by
  rw [List.prefix_iff_eq_take.mp hpre]
  exact h _ hpre.length_le

/-- The steps of a front of a stretch are steps of the stretch. -/
theorem mem_trace_of_front {s : Storage} {before later : List ContractTx} {st : ContractStep}
    (h : st ∈ trace exec s before) (hpre : before <+: later) : st ∈ trace exec s later := by
  obtain ⟨rest, rfl⟩ := hpre
  rw [trace_append]
  exact List.mem_append_left _ h

/-! ## A short run -/

/-- A fresh contract with an admin and an operator. -/
def launch : List ContractTx := [⟨.initializeContract ⟨1⟩ ⟨2⟩, ⟨[⟨1⟩, ⟨2⟩], 1, 1⟩⟩]

/-- The outage of the short runs. -/
def sampleOutage : Symbol := symbolShort "outage"

/-- The operator of `launch` submits an outage of ten minutes. -/
def submitTen (now : Nat) (severity : Symbol) : ContractTx :=
  ⟨.calculateSla ⟨2⟩ sampleOutage severity 10, ⟨[⟨2⟩], now, now⟩⟩

/-- A run that records one decision. -/
def oneDecision : List ContractTx := launch ++ [submitTen 2 critical]

/-- The decision it records. -/
def sampleDecision : SLAResult :=
  ⟨sampleOutage, .met, 10, 15, 1125, .rew, .excel, severityConfigHash ⟨15, 100, 750⟩, 2⟩

example : recorded oneDecision = [sampleDecision] := by decide

/-- A run that sets a configuration and a retention limit of two, and records three decisions, the
last of which evicts the first. -/
def busyRun : List ContractTx :=
  launch ++
    [⟨.setConfig ⟨1⟩ critical 20 100 750, ⟨[⟨1⟩], 2, 2⟩⟩,
      ⟨.setRetentionLimit ⟨1⟩ 2, ⟨[⟨1⟩], 3, 3⟩⟩, submitTen 4 critical,
      ⟨.calculateSla ⟨2⟩ (symbolShort "outage_b" (by decide)) critical 40, ⟨[⟨2⟩], 5, 5⟩⟩,
      ⟨.calculateSla ⟨2⟩ (symbolShort "outage_c" (by decide)) low 30, ⟨[⟨2⟩], 6, 6⟩⟩]

example : (recorded busyRun).length = 3 ∧
    History.readAllEntries (after busyRun) = (recorded busyRun).drop 1 := by decide

end ApexChainx
