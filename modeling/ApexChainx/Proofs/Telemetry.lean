import ApexChainx.Misc.Bursts
import ApexChainx.Proofs.Calculation
import ApexChainx.Proofs.EventLog
import ApexChainx.Proofs.Lanes

/-!
# Telemetry as a function of the decision log

Over a run with one `initialize` whose ledger times do not decrease and fit a lane, the counters
of a severity count the latest bursts of its log (`telemetry_of_log`): the calculations at the end
of the log that follow each other within a week, and the violations likewise, unless the last
calculation came a week or more after the last violation.
-/

namespace ApexChainx

open Host Misc

/-! ## The log of a lane -/

/-- The event records a decision in the lane of the severity. -/
def Event.inLane (severity : Symbol) : Event → Bool
  | .slaCalc recorded_severity _ =>
    canonicalSeverityIndex recorded_severity = canonicalSeverityIndex severity
  | _ => false

/-- The decisions recorded in the lane of a severity. The custom severities share a lane. -/
def laneLog (evs : List Event) (severity : Symbol) : List SLAResult :=
  decisions (evs.filter (Event.inLane severity))

/-- The times of the calculations of a log. -/
def calculationTimes (log : List SLAResult) : List Nat := log.map SLAResult.recorded_at

/-- The times of the violations of a log. -/
def violationTimes (log : List SLAResult) : List Nat :=
  (log.filter (·.status = .viol)).map SLAResult.recorded_at

/-- The last calculation came a week or more after the last violation. -/
def lapsed (log : List SLAResult) : Bool :=
  (calculationTimes log).getLast?.any fun calculated =>
    (violationTimes log).getLast?.any fun violated => weekSeconds ≤ calculated - violated

/-- The lane holds what its log says. -/
structure LaneExact (log : List SLAResult) (lane : Lane) : Prop where
  calculations : lane.calculations = countBurst 32 weekSeconds (calculationTimes log)
  violations : lane.violations =
    if lapsed log then 0 else countBurst 32 weekSeconds (violationTimes log)
  lastCalculation : lane.lastCalculation = (calculationTimes log).getLast?.getD 0
  lastViolation : lane.lastViolation = (violationTimes log).getLast?.getD 0
  bounded : lane.violations ≤ lane.calculations

/-- The log is in the order of its times, none of them zero or later than `now`. -/
structure Timely (now : Nat) (log : List SLAResult) : Prop where
  sorted : log.Pairwise fun a b => a.recorded_at ≤ b.recorded_at
  past : ∀ decision ∈ log, 1 ≤ decision.recorded_at ∧ decision.recorded_at ≤ now

@[simp] theorem laneLog_nil (severity : Symbol) : laneLog [] severity = [] := rfl

theorem laneLog_append (evs new : List Event) (severity : Symbol) :
    laneLog (evs ++ new) severity = laneLog evs severity ++ laneLog new severity := by
  simp [laneLog]

theorem laneLog_sublist (evs : List Event) (severity : Symbol) :
    (laneLog evs severity).Sublist (decisions evs) :=
  List.filter_sublist.filterMap _

theorem laneLog_eq_nil {evs : List Event} (h : decisions evs = []) (severity : Symbol) :
    laneLog evs severity = [] :=
  List.sublist_nil.mp (h ▸ laneLog_sublist evs severity)

theorem laneLog_recordedEvents (f : Frame Address) (s : Storage) (severity other : Symbol)
    (result : SLAResult) :
    laneLog (recordedEvents f s severity result) other =
      if canonicalSeverityIndex other = canonicalSeverityIndex severity then [result] else [] := by
  rw [recordedEvents, laneLog_append, laneLog_eq_nil (decisions_statsAfter _ _), List.nil_append]
  by_cases h : canonicalSeverityIndex severity = canonicalSeverityIndex other
  · simp [laneLog, Event.inLane, h, decisions, Event.decision?]
  · simp [laneLog, Event.inLane, h, Ne.symm h]

section Log

variable {log : List SLAResult} {now : Nat}

theorem laneExact_nil : LaneExact [] ⟨0, 0, 0, 0⟩ where
  calculations := (countBurst_nil ..).symm
  violations := (countBurst_nil ..).symm
  lastCalculation := rfl
  lastViolation := rfl
  bounded := Nat.le_refl 0

theorem timely_nil (now : Nat) : Timely now [] := ⟨.nil, by simp⟩

/-- A stamp read back from a timely log is stale when the last time of the log is a week old. -/
theorem isStale_eq (times : List Nat) (hpos : ∀ t ∈ times, 1 ≤ t) :
    isStale now (times.getLast?.getD 0) = times.getLast?.any (weekSeconds ≤ now - ·) := by
  cases hlast : times.getLast? with
  | none => simp [isStale]
  | some last =>
    have := hpos last (List.mem_of_getLast? hlast)
    have hne : last ≠ 0 := by omega
    simp [isStale, hne]

theorem Timely.concat (h : Timely now log) {result : SLAResult} (hresult : result.recorded_at = now)
    (hpos : 1 ≤ now) : Timely now (log ++ [result]) where
  sorted := by
    refine List.pairwise_append.mpr ⟨h.sorted, by simp, ?_⟩
    intro a ha b hb
    rw [List.mem_singleton.mp hb, hresult]
    exact (h.past a ha).2
  past := by
    intro decision hd
    rcases List.mem_append.mp hd with hd | hd
    · exact h.past decision hd
    · rw [List.mem_singleton.mp hd, hresult]
      exact ⟨hpos, Nat.le_refl now⟩

theorem Timely.mono {later : Nat} (h : Timely now log) (hle : now ≤ later) : Timely later log :=
  ⟨h.sorted, fun decision hd => ⟨(h.past decision hd).1, Nat.le_trans (h.past decision hd).2 hle⟩⟩

theorem Timely.calculation (h : Timely now log) {t : Nat} (ht : t ∈ calculationTimes log) :
    1 ≤ t ∧ t ≤ now := by
  obtain ⟨decision, hd, rfl⟩ := List.mem_map.mp ht
  exact h.past decision hd

theorem violationTimes_sublist (log : List SLAResult) :
    (violationTimes log).Sublist (calculationTimes log) :=
  List.filter_sublist.map _

/-- No violation is later than the last calculation. -/
theorem Timely.violation_le (h : Timely now log) {calculated violated : Nat}
    (hlast : (calculationTimes log).getLast? = some calculated)
    (hmem : violated ∈ violationTimes log) : violated ≤ calculated := by
  have hsorted : (calculationTimes log).Pairwise (· ≤ ·) := List.pairwise_map.mpr h.sorted
  have hin := (violationTimes_sublist log).subset hmem
  obtain ⟨front, hfront⟩ := List.getLast?_eq_some_iff.mp hlast
  rw [hfront] at hsorted hin
  rcases List.mem_append.mp hin with hin | hin
  · exact (List.pairwise_append.mp hsorted).2.2 violated hin calculated (by simp)
  · exact Nat.le_of_eq (List.mem_singleton.mp hin)

/-- When the last violation is not stale at `now`, the log had not lapsed either. -/
theorem Timely.not_lapsed (h : Timely now log)
    (hfresh : (violationTimes log).getLast?.any (weekSeconds ≤ now - ·) = false) :
    lapsed log = false := by
  unfold lapsed
  cases hcalculated : (calculationTimes log).getLast? with
  | none => rfl
  | some calculated =>
    have hle := (h.calculation (List.mem_of_getLast? hcalculated)).2
    cases hviolated : (violationTimes log).getLast? with
    | none => rfl
    | some violated =>
      simp only [hviolated, Option.any_some, decide_eq_false_iff_not] at hfresh ⊢
      omega

end Log

section Record

variable {log : List SLAResult} {lane : Lane} {now : Nat}

theorem LaneExact.stale_calculation (h : LaneExact log lane) (ht : Timely now log) :
    isStale now lane.lastCalculation =
      (calculationTimes log).getLast?.any (weekSeconds ≤ now - ·) := by
  rw [h.lastCalculation, isStale_eq _ fun t hmem => (ht.calculation hmem).1]

theorem LaneExact.stale_violation (h : LaneExact log lane) (ht : Timely now log) :
    isStale now lane.lastViolation =
      (violationTimes log).getLast?.any (weekSeconds ≤ now - ·) := by
  rw [h.lastViolation,
    isStale_eq _ fun t hmem => (ht.calculation ((violationTimes_sublist log).subset hmem)).1]

/-- The violations a calculation at `now` starts from. -/
theorem LaneExact.kept (h : LaneExact log lane) (ht : Timely now log) :
    (if isStale now lane.lastViolation then 0 else lane.violations) =
      if (violationTimes log).getLast?.any (weekSeconds ≤ now - ·) then 0
      else countBurst 32 weekSeconds (violationTimes log) := by
  rw [h.stale_violation ht, h.violations]
  cases hfresh : (violationTimes log).getLast?.any (weekSeconds ≤ now - ·) with
  | true => rfl
  | false => simp [ht.not_lapsed hfresh]

/-- They are no more than the calculations it starts from: a stale calculation lane has a stale
violation lane. -/
theorem LaneExact.kept_le (h : LaneExact log lane) (ht : Timely now log) :
    (if isStale now lane.lastViolation then 0 else lane.violations) ≤
      if isStale now lane.lastCalculation then 0 else lane.calculations := by
  cases hstale : isStale now lane.lastCalculation with
  | false =>
    have hbounded := h.bounded
    simp only [Bool.false_eq_true, if_false]
    split <;> omega
  | true =>
    rw [h.stale_calculation ht] at hstale
    rw [h.kept ht]
    cases hcalculated : (calculationTimes log).getLast? with
    | none => simp [hcalculated] at hstale
    | some calculated =>
      simp only [hcalculated, Option.any_some, decide_eq_true_eq] at hstale
      cases hviolated : (violationTimes log).getLast? with
      | none =>
        rw [List.getLast?_eq_none_iff.mp hviolated]
        exact Nat.le_of_eq (countBurst_nil ..)
      | some violated =>
        have hle := ht.violation_le hcalculated (List.mem_of_getLast? hviolated)
        have hpassed : weekSeconds ≤ now - violated := by omega
        simp [hpassed]

theorem calculationTimes_concat (log : List SLAResult) {result : SLAResult}
    (hresult : result.recorded_at = now) :
    calculationTimes (log ++ [result]) = calculationTimes log ++ [now] := by
  simp [calculationTimes, hresult]

theorem violationTimes_concat (log : List SLAResult) {result : SLAResult}
    (hresult : result.recorded_at = now) :
    violationTimes (log ++ [result]) =
      violationTimes log ++ if result.status = .viol then [now] else [] := by
  by_cases h : result.status = .viol <;> simp [violationTimes, h, hresult]

/-- One more calculation in the lane is one more decision in its log. -/
theorem LaneExact.record {result : SLAResult} (h : LaneExact log lane) (ht : Timely now log)
    (hresult : result.recorded_at = now) (hfits : now < 2 ^ 32) :
    LaneExact (log ++ [result]) (lane.record now (result.status ≠ .viol)) := by
  have hstamp : laneTimestamp now = now := by
    simp only [laneTimestamp, unsignedMax]
    exact if_neg (by omega)
  have hcalculations := calculationTimes_concat log hresult
  have hviolations := violationTimes_concat log hresult
  have hlapsed : lapsed (log ++ [result]) =
      (violationTimes (log ++ [result])).getLast?.any (weekSeconds ≤ now - ·) := by
    simp [lapsed, hcalculations]
  have hkept := h.kept ht
  have hle := h.kept_le ht
  refine ⟨?_, ?_, ?_, ?_, ?_⟩
  · rw [hcalculations, countBurst_concat (by decide), ← h.stale_calculation ht, ← h.calculations]
    rfl
  · by_cases hviol : result.status = .viol
    · rw [if_pos hviol] at hviolations
      have hnot : lapsed (log ++ [result]) = false := by
        simp [hlapsed, hviolations, weekSeconds]
      rw [hnot, hviolations, countBurst_concat (by decide), ← hkept]
      simp [Lane.record, hviol]
    · rw [if_neg hviol, List.append_nil] at hviolations
      rw [hlapsed, hviolations, ← hkept]
      simp [Lane.record, hviol]
  · simp [Lane.record, hcalculations, hstamp]
  · by_cases hviol : result.status = .viol
    · simp [Lane.record, hviolations, hviol, hstamp]
    · simp [Lane.record, hviolations, hviol, h.lastViolation]
  · have hmax : (if isStale now lane.lastViolation then 0 else lane.violations) ≤
        unsignedMax 32 := by
      rw [hkept]
      split
      · exact Nat.zero_le _
      · exact Nat.min_le_left ..
    simp only [Lane.record, saturatingAdd]
    split <;> omega

end Record

/-! ## Lanes after a call -/

section Steps

variable {f : Frame Address} {s s' : Storage} {c : Call} {r : Reply} {evs : List Event}

/-- A call that stores a decision records a calculation in the lane of its severity. -/
theorem Records.lane {severity : Symbol} {cfg : SLAConfig} {result : SLAResult}
    (hr : Records f s c r s' evs severity cfg result)
    (hi : invoke exec ⟨c, f⟩ s = ⟨s', evs, .ok r⟩) (other : Symbol) :
    telemetryLane s' other =
      if canonicalSeverityIndex other = canonicalSeverityIndex severity then
        (telemetryLane s other).record f.timestamp (result.status ≠ .viol)
      else telemetryLane s other := by
  obtain ⟨caller, by_operator, rfl⟩ := hr.call
  have hsubmits : Submits f s caller result.outage_id severity result.mttr_minutes cfg result :=
    ⟨by_operator, hr.bound, hr.config, hr.computed⟩
  obtain ⟨env', hcalculates, -⟩ := hsubmits.records hr.admits
  have hstorage : env'.storage = s' :=
    congrArg Outcome.storage ((reply_of_returns hcalculates).symm.trans hi)
  have hrecords : (recordDecision severity result
      (History.entryIndicesForOutage s result.outage_id)).Returns f ⟨s, [], []⟩ result env' :=
    (hsubmits.calculateSla_fresh hr.admits).symm.trans hcalculates
  rw [← hstorage]
  exact recordDecision_lane hrecords rfl other

/-- A successful call other than `initialize` logs one decision in the lane and records it there,
or neither. -/
theorem Effect.lane (he : Effect f s c r s' evs) (hi : invoke exec ⟨c, f⟩ s = ⟨s', evs, .ok r⟩)
    (hinit : c.isInitialize = false) (severity : Symbol) :
    (∃ result, laneLog evs severity = [result] ∧ result.recorded_at = f.timestamp ∧
      telemetryLane s' severity =
        (telemetryLane s severity).record f.timestamp (result.status ≠ .viol)) ∨
    laneLog evs severity = [] ∧ telemetryLane s' severity = telemetryLane s severity := by
  rcases he.records_or_quiet with ⟨recorded_severity, cfg, result, hr⟩ | ⟨hquiet, hkeeps⟩
  · rw [hr.lane hi, hr.events, laneLog_recordedEvents]
    by_cases hlane : canonicalSeverityIndex severity = canonicalSeverityIndex recorded_severity
    · rw [if_pos hlane, if_pos hlane]
      exact .inl ⟨result, rfl, (computeResult_inputs hr.computed).2.2.2.2, rfl⟩
    · rw [if_neg hlane, if_neg hlane]
      exact .inr ⟨rfl, rfl⟩
  · exact .inr ⟨laneLog_eq_nil (decisions_of_quiet hquiet) severity,
      telemetryLane_congr (fun k hk => hkeeps hinit k (.inr hk)) severity⟩

/-- A calculation of one severity changes no other lane. -/
theorem Effect.isolated {caller : Address} {outage_id severity : Symbol} {mttr : Nat}
    (he : Effect f s (.calculateSla caller outage_id severity mttr) r s' evs)
    (hi : invoke exec (submission f caller outage_id severity mttr) s = ⟨s', evs, .ok r⟩)
    {other : Symbol} (hother : canonicalSeverityIndex other ≠ canonicalSeverityIndex severity) :
    telemetryLane s' other = telemetryLane s other := by
  rcases he.records_or_quiet with ⟨recorded_severity, cfg, result, hr⟩ | ⟨-, hkeeps⟩
  · obtain ⟨caller', -, hcall⟩ := hr.call
    obtain ⟨-, -, rfl, -⟩ := Call.calculateSla.inj hcall
    rw [hr.lane hi, if_neg hother]
  · exact telemetryLane_congr (fun k hk => hkeeps rfl k (.inr hk)) other

end Steps

/-! ## Whole runs -/

/-- The ledger times of a run do not decrease, are not zero and fit a lane. -/
structure Stampable (txs : List ContractTx) : Prop where
  sorted : NonDecreasing txs
  range : ∀ tx ∈ txs, 1 ≤ tx.frame.timestamp ∧ tx.frame.timestamp < 2 ^ 32

theorem Stampable.past {txs : List ContractTx} {tx : ContractTx} (h : Stampable (txs ++ [tx])) :
    Stampable txs ∧ ∀ tx' ∈ txs, tx'.frame.timestamp ≤ tx.frame.timestamp := by
  obtain ⟨hsorted, -, hlast⟩ := List.pairwise_append.mp h.sorted
  exact ⟨⟨hsorted, fun tx' htx' => h.range tx' (List.mem_append_left _ htx')⟩,
    fun tx' htx' => hlast tx' htx' tx (by simp)⟩

/-- Every lane of the storage holds what the events say of it. -/
structure LanesExact (now : Nat) (evs : List Event) (s : Storage) : Prop where
  timely : ∀ severity, Timely now (laneLog evs severity)
  exact : ∀ severity, LaneExact (laneLog evs severity) (telemetryLane s severity)

theorem LanesExact.mono {now later : Nat} {evs : List Event} {s : Storage}
    (h : LanesExact now evs s) (hle : now ≤ later) : LanesExact later evs s :=
  ⟨fun severity => (h.timely severity).mono hle, h.exact⟩

/-- `initialize` zeroes the lanes of the canonical severities and leaves the custom one. -/
theorem telemetryLane_restarted (s : Storage) (admin operator : Address) (severity : Symbol) :
    telemetryLane (initializedStorage s admin operator) severity = ⟨0, 0, 0, 0⟩ ∨
      telemetryLane (initializedStorage s admin operator) severity =
        telemetryLane s severity := by
  cases h : canonicalSeverityIndex severity with
  | some index =>
    left
    rw [telemetryLane_of_canonical h]
    simp [initializedStorage, countsOf]
  | none =>
    right
    rw [telemetryLane_of_custom h, telemetryLane_of_custom h]
    simp [initializedStorage]

theorem telemetryLane_initialized (admin operator : Address) (severity : Symbol) :
    telemetryLane (initializedStorage Store.empty admin operator) severity = ⟨0, 0, 0, 0⟩ := by
  rcases telemetryLane_restarted Store.empty admin operator severity with hzero | hsame
  · exact hzero
  · rw [hsame, telemetryLane_empty]

/-- A call at `now` keeps every lane exact. -/
theorem Effect.lanesExact {tx : ContractTx} {s s' : Storage} {r : Reply} {evs new : List Event}
    (he : Effect tx.frame s tx.call r s' new) (hi : invoke exec tx s = ⟨s', new, .ok r⟩)
    (hinit : tx.call.isInitialize = false) (hpos : 1 ≤ tx.frame.timestamp)
    (hfits : tx.frame.timestamp < 2 ^ 32) (h : LanesExact tx.frame.timestamp evs s) :
    LanesExact tx.frame.timestamp (evs ++ new) s' := by
  refine ⟨?_, ?_⟩ <;> intro severity <;> rw [laneLog_append]
  · rcases he.lane hi hinit severity with ⟨result, hlog, htime, -⟩ | ⟨hlog, -⟩
    · rw [hlog]
      exact (h.timely severity).concat htime hpos
    · rw [hlog, List.append_nil]
      exact h.timely severity
  · rcases he.lane hi hinit severity with ⟨result, hlog, htime, hlane⟩ | ⟨hlog, hlane⟩
    · rw [hlog, hlane]
      exact (h.exact severity).record (h.timely severity) htime hfits
    · rw [hlog, hlane, List.append_nil]
      exact h.exact severity

theorem lanesExact_after {txs : List ContractTx} (hone : initializations txs = 1)
    (hstamps : Stampable txs) :
    LanesExact (2 ^ 32) (committed exec Store.empty txs) (after txs) := by
  have hrun := initialized_induction
    (P := fun past s => Stampable (past.map Step.tx) →
      ∀ now, (∀ tx ∈ past.map Step.tx, tx.frame.timestamp ≤ now) →
        LanesExact now (past.flatMap (Step.events exec)) s) ?_ ?_ ?_ txs hone
  · rw [map_tx_trace] at hrun
    exact hrun hstamps (2 ^ 32) fun tx htx => Nat.le_of_lt (hstamps.range tx htx).2
  · intro past tx admin operator hnone hcall _ _ now _
    rw [List.flatMap_append, hnone, List.flatMap_singleton, events_of_empty, List.append_nil]
    refine ⟨fun _ => timely_nil now, ?_⟩
    intro severity
    rw [telemetryLane_initialized]
    exact laneExact_nil
  · intro past s tx r s' evs ih he hinit hi hstamps now hnow
    rw [List.map_append] at hstamps hnow
    obtain ⟨hpast, hlast⟩ := hstamps.past
    obtain ⟨hpos, hfits⟩ := hstamps.range tx (by simp)
    rw [List.flatMap_append, List.flatMap_singleton, events_of_invoke hi]
    exact (he.lanesExact hi hinit hpos hfits (ih hpast _ hlast)).mono (hnow tx (by simp))
  · intro past s tx x ih hi hstamps now hnow
    rw [List.map_append] at hstamps hnow
    rw [List.flatMap_append, List.flatMap_singleton, events_of_invoke hi, List.append_nil]
    exact ih hstamps.past.1 now fun tx' htx' => hnow tx' (List.mem_append_left _ htx')

/-- A calculation of one severity changes no lane of another, in every step of a run. -/
theorem isolated_after {txs : List ContractTx} {st : ContractStep} (hst : st ∈ steps txs)
    {caller : Address} {outage_id severity other : Symbol} {mttr : Nat}
    (hcall : st.tx.call = .calculateSla caller outage_id severity mttr)
    (hother : canonicalSeverityIndex other ≠ canonicalSeverityIndex severity) :
    telemetryLane (st.post exec) other = telemetryLane st.pre other := by
  obtain ⟨before, ⟨call, f⟩, -, rfl⟩ := mem_trace.mp hst
  obtain rfl : call = .calculateSla caller outage_id severity mttr := hcall
  rcases invoke_effect (current_after before) ⟨.calculateSla caller outage_id severity mttr, f⟩ with
    ⟨r, s', evs, he, hi⟩ | ⟨x, hi⟩
  · rw [post_of_invoke hi]
    exact he.isolated hi hother
  · rw [post_of_invoke hi]

/-- The row of the telemetry view that reports the lane of a severity. -/
def reportedRow (s : Storage) (severity : Symbol) : SeverityTelemetry :=
  telemetryRow severity (telemetryLane s severity).calculations
    (telemetryLane s severity).violations

/-- The telemetry view reports the lanes of the canonical severities, then that of the custom
ones. -/
theorem getSeverityTelemetry_rows {s : Storage} {rows : List SeverityTelemetry}
    (h : getSeverityTelemetry s = .ok rows) :
    rows = canonicalSeverities.map (reportedRow s) ∨
      rows = (canonicalSeverities ++ [customTelemetrySeverity]).map (reportedRow s) := by
  simp only [getSeverityTelemetry, bind_eq_ok] at h
  obtain ⟨_, -, h⟩ := h
  split at h
  · obtain rfl := pure_eq_ok.mp h
    exact .inr rfl
  · obtain rfl := pure_eq_ok.mp h
    exact .inl rfl

/-- The telemetry is what the decision log says of it: every lane is exact, the view reports the
lanes, and a calculation of one severity leaves the lanes of the others. -/
structure TelemetryOfLog (txs : List ContractTx) : Prop where
  lanes : ∀ severity, LaneExact (laneLog (committed exec Store.empty txs) severity)
    (telemetryLane (after txs) severity)
  view : ∀ rows, getSeverityTelemetry (after txs) = .ok rows →
    rows = canonicalSeverities.map (reportedRow (after txs)) ∨
      rows = (canonicalSeverities ++ [customTelemetrySeverity]).map (reportedRow (after txs))
  isolated : ∀ st ∈ steps txs, ∀ caller outage_id severity mttr,
    st.tx.call = .calculateSla caller outage_id severity mttr → ∀ other,
      canonicalSeverityIndex other ≠ canonicalSeverityIndex severity →
        telemetryLane (st.post exec) other = telemetryLane st.pre other

/-- Over every run with one `initialize` whose ledger times do not decrease and fit a lane, the
telemetry is a function of the decision log. -/
theorem telemetry_of_log (txs : List ContractTx) (hone : initializations txs = 1)
    (hstamps : Stampable txs) : TelemetryOfLog txs where
  lanes := (lanesExact_after hone hstamps).exact
  view := fun _ h => getSeverityTelemetry_rows h
  isolated := fun _ hst _ _ _ _ hcall _ hother => isolated_after hst hcall hother

theorem telemetry_of_log_busyRun :
    (telemetryLane (after busyRun) critical).calculations = 2 := by
  have hstamps : Stampable busyRun :=
    ⟨by simp [NonDecreasing, busyRun, launch, submitTen], by decide⟩
  rw [((telemetry_of_log busyRun (by decide) hstamps).lanes critical).calculations]
  decide

end ApexChainx
