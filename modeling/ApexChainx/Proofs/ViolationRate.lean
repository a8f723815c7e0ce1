import Mathlib.Tactic.Ring
import ApexChainx.Proofs.Telemetry
import ApexChainx.Proofs.Turns

/-!
# The violation rate

`get_severity_telemetry` multiplies the violations by 100 in saturating `u32` arithmetic and then
divides. The product saturates past 42,949,672 violations, and from then on the rate is exact only
when no multiple of the calculations lies between the saturated product and the true one
(`rateExact_iff`). In a run that records no violation beyond that number in the window of a lane,
every rate is exact and never falls when a violation is recorded (`violation_rates`).
-/

namespace ApexChainx

open Host Misc

/-! ## One row -/

/-- The rate is the number of violations in 100 calculations, rounded down. -/
def RateExact (row : SeverityTelemetry) : Prop :=
  row.violation_rate =
    if row.calculations = 0 then 0 else 100 * row.violations / row.calculations

/-- A multiple of the calculations lies past the largest `u32`, and within 100 times the
violations. -/
def Clamped (violations calculations : Nat) : Prop :=
  ∃ m, unsignedMax 32 < m * calculations ∧ m * calculations ≤ 100 * violations

/-- The largest number of violations whose product with 100 fits a `u32`. -/
def violationCap : Nat := 42949672

section Row

variable {v c : Nat}

/-- Dividing a saturated number differs from dividing the number when a multiple of the divisor
lies between the two. -/
theorem min_div_eq_iff {bound x : Nat} (hc : 0 < c) :
    min x bound / c = x / c ↔ ¬ ∃ m, bound < m * c ∧ m * c ≤ x := by
  constructor
  · rintro h ⟨m, hlow, hhigh⟩
    have hm : m ≤ min x bound / c := by
      rw [h]
      exact (Nat.le_div_iff_mul_le hc).mpr hhigh
    have hle := (Nat.le_div_iff_mul_le hc).mp hm
    omega
  · intro h
    apply Nat.le_antisymm (Nat.div_le_div_right (Nat.min_le_left ..))
    -- the quotient of the number is a multiple that the bound admits
    have hx : x / c * c ≤ x := Nat.div_mul_le_self x c
    have hbound : x / c * c ≤ bound := by
      by_contra hlt
      exact h ⟨x / c, Nat.lt_of_not_le hlt, hx⟩
    exact (Nat.le_div_iff_mul_le hc).mpr (Nat.le_min.mpr ⟨hx, hbound⟩)

theorem rate_le_hundred (h : v ≤ c) (hc : 0 < c) : 100 * v / c ≤ 100 := by
  rw [Nat.div_le_iff_le_mul_add_pred hc]
  omega

theorem rateExact_iff (severity : Symbol) (h : v ≤ c) :
    RateExact (telemetryRow severity c v) ↔ ¬ Clamped v c := by
  simp only [RateExact, telemetryRow, Clamped, saturatingMul, Nat.mul_comm v 100]
  by_cases hc : c = 0
  · subst hc
    simp
  · have hpos : 0 < c := Nat.pos_of_ne_zero hc
    have hle : min (100 * v) (unsignedMax 32) / c ≤ 100 :=
      (Nat.div_le_div_right (Nat.min_le_left ..)).trans (rate_le_hundred h hpos)
    rw [if_neg hc, if_neg hc, Nat.min_eq_left hle]
    exact min_div_eq_iff hpos

/-- Nothing is clamped up to the cap. -/
theorem not_clamped (h : v ≤ violationCap) : ¬ Clamped v c := by
  rintro ⟨m, hlow, hhigh⟩
  simp only [unsignedMax, violationCap] at hlow h
  omega

/-- One more violation among one more calculation does not lower the rate. -/
theorem div_le_div_succ (h : v ≤ c) (hc : 0 < c) : 100 * v / c ≤ 100 * (v + 1) / (c + 1) := by
  rw [Nat.le_div_iff_mul_le (Nat.succ_pos c)]
  have hself := Nat.div_mul_le_self (100 * v) c
  calc 100 * v / c * (c + 1) = 100 * v / c * c + 100 * v / c := by ring
    _ ≤ 100 * v + 100 := Nat.add_le_add hself (rate_le_hundred h hc)
    _ = 100 * (v + 1) := by ring

/-- Below the cap a further violation does not lower the reported rate. -/
theorem telemetryRow_rate_le (severity : Symbol) (hv : v < violationCap) (hc : c < 2 ^ 32) :
    (telemetryRow severity c v).violation_rate ≤
      (telemetryRow severity (saturatingAdd 32 c 1) (saturatingAdd 32 v 1)).violation_rate := by
  have hproduct : saturatingMul 32 v 100 = 100 * v := by
    simp only [saturatingMul, unsignedMax, violationCap] at *
    omega
  have hproduct' : saturatingMul 32 (v + 1) 100 = 100 * (v + 1) := by
    simp only [saturatingMul, unsignedMax, violationCap] at *
    omega
  have hnext : saturatingAdd 32 v 1 = v + 1 := by
    simp only [saturatingAdd, unsignedMax, violationCap] at *
    omega
  simp only [telemetryRow, hnext, hproduct, hproduct']
  by_cases hzero : c = 0
  · simp [hzero]
  have hpos : 0 < c := Nat.pos_of_ne_zero hzero
  have hsucc : 0 < saturatingAdd 32 c 1 ∧ saturatingAdd 32 c 1 ≤ c + 1 := by
    simp only [saturatingAdd, unsignedMax]
    omega
  rw [if_neg hzero, if_neg (Nat.ne_of_gt hsucc.1)]
  refine Nat.le_min.mpr ⟨?_, Nat.min_le_right ..⟩
  rcases Nat.lt_or_ge c v with hlt | hle
  · -- more violations than calculations: both rates are cut at 100
    refine (Nat.min_le_right ..).trans ((Nat.le_div_iff_mul_le hsucc.1).mpr ?_)
    omega
  · exact (Nat.min_le_left ..).trans ((div_le_div_succ hle hpos).trans
      (Nat.div_le_div_left hsucc.2 hsucc.1))

end Row

/-! ## Recorded violations -/

/-- The call records a violation in the lane of the severity: its submission is admitted, and
decided as violated. -/
def RecordsViolation (st : ContractStep) (severity : Symbol) : Prop :=
  ∃ caller recorded_severity cfg result,
    st.tx.call =
      .calculateSla caller result.outage_id recorded_severity result.mttr_minutes ∧
    Submits st.tx.frame st.pre caller result.outage_id recorded_severity result.mttr_minutes cfg
      result ∧
    Admits st.pre result.outage_id (severityConfigHash cfg) ∧ result.status = .viol ∧
    canonicalSeverityIndex severity = canonicalSeverityIndex recorded_severity

/-- The call records a violation in a lane that already counts the capped number of violations in
its window. -/
def CountsPastCap (st : ContractStep) : Prop :=
  ∃ severity, RecordsViolation st severity ∧
    isStale st.tx.frame.timestamp (telemetryLane st.pre severity).lastViolation = false ∧
    violationCap ≤ (telemetryLane st.pre severity).violations

/-- A violation recorded within the window of its lane does not lower the reported rate. -/
def NeverLowers (st : ContractStep) : Prop :=
  ∀ severity, RecordsViolation st severity →
    isStale st.tx.frame.timestamp (telemetryLane st.pre severity).lastCalculation = false →
    isStale st.tx.frame.timestamp (telemetryLane st.pre severity).lastViolation = false →
    (reportedRow st.pre severity).violation_rate ≤
      (reportedRow (st.post exec) severity).violation_rate

/-- No lane counts more than the capped number of violations. -/
def WithinCap (s : Storage) : Prop :=
  ∀ severity, (telemetryLane s severity).violations ≤ violationCap

section Steps

variable {f : Frame Address} {s s' : Storage} {c : Call} {r : Reply} {evs : List Event}

/-- A recorded violation is counted in the lane. -/
theorem RecordsViolation.lane {tx : ContractTx} {severity : Symbol}
    (h : RecordsViolation ⟨s, tx⟩ severity) :
    telemetryLane (Step.post exec ⟨s, tx⟩) severity =
      (telemetryLane s severity).record tx.frame.timestamp false := by
  obtain ⟨call, f⟩ := tx
  obtain ⟨caller, recorded_severity, cfg, result, rfl, submits, admits, hviolated, hlane⟩ := h
  obtain ⟨s', hi, hr⟩ := submits.recorded admits
  rw [post_of_invoke hi, hr.lane hi, if_pos hlane]
  simp [hviolated]

/-- A decision that is stored violated is a recorded violation. -/
theorem Records.recordsViolation {severity other : Symbol} {cfg : SLAConfig} {result : SLAResult}
    (hr : Records f s c r s' evs severity cfg result) (hviolated : result.status = .viol)
    (hlane : canonicalSeverityIndex other = canonicalSeverityIndex severity) :
    RecordsViolation ⟨s, ⟨c, f⟩⟩ other := by
  obtain ⟨caller, by_operator, hcall⟩ := hr.call
  exact ⟨caller, severity, cfg, result, hcall, ⟨by_operator, hr.bound, hr.config, hr.computed⟩,
    hr.admits, hviolated, hlane⟩

/-- A call that does not count past the cap keeps the lanes within it. -/
theorem Effect.withinCap (he : Effect f s c r s' evs)
    (hi : invoke exec ⟨c, f⟩ s = ⟨s', evs, .ok r⟩) (hs : WithinCap s)
    (hpast : ¬ CountsPastCap ⟨s, ⟨c, f⟩⟩) : WithinCap s' := by
  intro other
  have hother := hs other
  rcases he.records_or_quiet with ⟨severity, cfg, result, hr⟩ | ⟨-, hkeeps⟩
  · rw [hr.lane hi]
    by_cases hlane : canonicalSeverityIndex other = canonicalSeverityIndex severity
    · rw [if_pos hlane]
      cases hstatus : result.status with
      | met =>
        simp only [Lane.record, ne_eq, reduceCtorEq, not_false_eq_true, decide_true, if_true]
        split <;> omega
      | viol =>
        have hroom : isStale f.timestamp (telemetryLane s other).lastViolation = true ∨
            (telemetryLane s other).violations < violationCap := by
          by_contra hno
          simp only [not_or, Bool.not_eq_true, Nat.not_lt] at hno
          exact hpast ⟨other, hr.recordsViolation hstatus hlane, hno⟩
        simp only [Lane.record, saturatingAdd, ne_eq, not_true_eq_false, decide_false,
          Bool.false_eq_true, if_false]
        refine (Nat.min_le_left ..).trans ?_
        rcases hroom with hstale | hlt
        · simp [hstale, violationCap]
        · split <;> omega
    · rw [if_neg hlane]
      exact hother
  · cases hinit : c.isInitialize with
    | true =>
      obtain ⟨admin, operator, -, -, -, -, rfl, -⟩ := he.of_initialize hinit
      rcases telemetryLane_restarted s admin operator other with hzero | hsame
      · rw [hzero]
        exact Nat.zero_le _
      · rw [hsame]
        exact hother
    | false =>
      rw [telemetryLane_congr (fun k hk => hkeeps hinit k (.inr hk)) other]
      exact hother

end Steps

/-! ## Whole runs -/

theorem withinCap_after {txs : List ContractTx} (hpast : ∀ st ∈ steps txs, ¬ CountsPastCap st) :
    WithinCap (after txs) := by
  refine effect_induction
    (P := fun past s => (∀ st ∈ past, ¬ CountsPastCap st) → WithinCap s) ?_ ?_ ?_ txs hpast
  · intro _ severity
    rw [telemetryLane_empty]
    exact Nat.zero_le _
  · intro past s tx r s' evs _ ih he hi hpast
    exact he.withinCap hi (ih fun st hst => hpast st (List.mem_append_left _ hst))
      (hpast _ (by simp))
  · intro past s tx x ih _ hpast
    exact ih fun st hst => hpast st (List.mem_append_left _ hst)

/-- On the current version the view answers. -/
theorem getSeverityTelemetry_ok {s : Storage} (h : s .storageVersion = some storageVersion) :
    ∃ rows, getSeverityTelemetry s = .ok rows := by
  have hversion : checkVersion s = .ok () := checkVersion_eq_ok.mpr h
  simp only [getSeverityTelemetry, hversion, ok_bind]
  split <;> exact ⟨_, rfl⟩

/-- The rows of the view report lanes. -/
theorem row_of_view {s : Storage} {rows : List SeverityTelemetry}
    (h : getSeverityTelemetry s = .ok rows) {row : SeverityTelemetry} (hrow : row ∈ rows) :
    ∃ severity, row = reportedRow s severity := by
  rcases getSeverityTelemetry_rows h with rfl | rfl
  all_goals
    obtain ⟨severity, -, rfl⟩ := List.mem_map.mp hrow
    exact ⟨severity, rfl⟩

/-- When the rates of a run are exact: a row, exactly when no multiple of its calculations is
clamped away; and all of them, at every step, in a run that does not count past the cap. -/
structure ViolationRates (txs : List ContractTx) : Prop where
  row : ∀ rows, getSeverityTelemetry (after txs) = .ok rows → ∀ row ∈ rows,
    row.violations ≤ row.calculations →
      (RateExact row ↔ ¬ Clamped row.violations row.calculations)
  exact : (∀ st ∈ steps txs, ¬ CountsPastCap st) →
    ∀ rows, getSeverityTelemetry (after txs) = .ok rows → ∀ row ∈ rows,
      row.violations ≤ row.calculations → RateExact row
  rises : (∀ st ∈ steps txs, ¬ CountsPastCap st) → ∀ st ∈ steps txs, NeverLowers st

theorem violation_rates (txs : List ContractTx) : ViolationRates txs where
  row := by
    intro rows hrows row hrow hle
    obtain ⟨severity, rfl⟩ := row_of_view hrows hrow
    exact rateExact_iff severity hle
  exact := by
    intro hpast rows hrows row hrow hle
    obtain ⟨severity, rfl⟩ := row_of_view hrows hrow
    exact (rateExact_iff severity hle).mpr (not_clamped (withinCap_after hpast severity))
  rises := by
    intro hpast st hst severity hrecords hcalculation hviolation
    obtain ⟨before, tx, hpre, rfl⟩ := mem_trace.mp hst
    have hroom : (telemetryLane (after before) severity).violations < violationCap := by
      by_contra hno
      exact hpast _ hst ⟨severity, hrecords, hviolation, Nat.le_of_not_lt hno⟩
    have hcount : (telemetryLane (after before) severity).calculations < 2 ^ 32 := by
      cases h : canonicalSeverityIndex severity with
      | some index =>
        rw [telemetryLane_of_canonical h]
        exact countLane_lt _ _
      | none =>
        rw [telemetryLane_of_custom h]
        exact countLane_lt _ _
    have hlane := hrecords.lane
    simp only at hcalculation hviolation
    simp only [reportedRow, hlane, Lane.record, hcalculation, hviolation, Bool.false_eq_true,
      if_false]
    exact telemetryRow_rate_le severity hroom hcount

/-! ## Past the cap -/

/-- The outages of the violated turns, one after the other. -/
def violatedOutage (i : Nat) : Symbol := if i % 2 = 0 then sampleOutage else symbolShort "outage2"

theorem violated_computed (outage_id : Symbol) (hash : Nat) :
    computeResult outage_id 100 ⟨15, 100, 750⟩ hash 3 =
      .ok ⟨outage_id, .viol, 100, 15, -8500, .pen, .poor, hash, 3⟩ := by rfl

/-- A critical outage of a hundred minutes. -/
def violatedTurn (i : Nat) : Turn where
  severity := critical
  cfg := ⟨15, 100, 750⟩
  result := ⟨violatedOutage i, .viol, 100, 15, -8500, .pen, .poor,
    severityConfigHash ⟨15, 100, 750⟩, 3⟩
  bound := by
    change 100 ≤ maxMttr
    decide
  config := by rfl
  computed := violated_computed (violatedOutage i) (severityConfigHash ⟨15, 100, 750⟩)

/-- `n` violated turns. -/
def violatedTurns (n : Nat) : List ContractTx :=
  launchOne ++ (List.range n).map fun i => (violatedTurn i).tx

theorem violatedTurns_succ (n : Nat) :
    violatedTurns (n + 1) = violatedTurns n ++ [(violatedTurn n).tx] := by
  simp [violatedTurns, List.range_succ]

theorem violatedOutage_ne (i : Nat) : violatedOutage i ≠ violatedOutage (i + 1) := by
  have hne : sampleOutage ≠ symbolShort "outage2" := by decide
  rcases Nat.mod_two_eq_zero_or_one i with h | h
  · have hnext : (i + 1) % 2 ≠ 0 := by omega
    simpa [violatedOutage, h, hnext] using hne
  · have hnext : (i + 1) % 2 = 0 := by omega
    simpa [violatedOutage, h, hnext] using hne.symm

/-- Every turn counts one more calculation and one more violation. -/
theorem violatedTurns_lane {n : Nat} (hn : n < 2 ^ 32) :
    Turned n (if n = 0 then none else some (violatedTurn (n - 1)).result)
      (after (violatedTurns n)) ∧
    telemetryLane (after (violatedTurns n)) critical =
      ⟨n, n, if n = 0 then 0 else 3, if n = 0 then 0 else 3⟩ := by
  induction n with
  | zero => exact ⟨turned_zero, by decide⟩
  | succ n ih =>
    obtain ⟨h, hlane⟩ := ih (by omega)
    obtain ⟨s', hi, hr⟩ := h.records (violatedTurn n) (by
      intro prev hprev houtage
      cases n with
      | zero => cases hprev
      | succ m =>
        obtain rfl : (violatedTurn m).result = prev := by simpa using hprev
        exact absurd houtage (violatedOutage_ne m))
    rw [violatedTurns_succ, after_append_cons, hi]
    refine ⟨h.succ hn hr.change, ?_⟩
    have hnext : saturatingAdd 32 n 1 = n + 1 := by
      simp only [saturatingAdd, unsignedMax]
      omega
    have hfresh : isStale 3 (if n = 0 then 0 else 3) = false := by
      split <;> decide
    have hsame : canonicalSeverityIndex critical =
        canonicalSeverityIndex (violatedTurn n).severity := rfl
    change telemetryLane s' critical = _
    rw [hr.lane hi, if_pos hsame, hlane]
    simp only [Lane.record, hfresh, hnext, Bool.false_eq_true, if_false]
    rfl

/-- After 42,949,673 calculations that were all violated the rate reads 99. -/
theorem violatedTurns_not_exact :
    ¬ ∀ txs rows, getSeverityTelemetry (after txs) = .ok rows → ∀ row ∈ rows,
      row.violations ≤ row.calculations → RateExact row := by
  intro h
  obtain ⟨hturned, hlane⟩ := violatedTurns_lane (n := 42949673) (by decide)
  have hversion : after (violatedTurns 42949673) .storageVersion = some storageVersion :=
    (hturned.other .storageVersion rfl rfl (by simp)).trans (by rfl)
  obtain ⟨rows, hrows⟩ := getSeverityTelemetry_ok hversion
  have hrow : reportedRow (after (violatedTurns 42949673)) critical ∈ rows := by
    rcases getSeverityTelemetry_rows hrows with rfl | rfl
    · exact List.mem_map_of_mem (by decide)
    · exact List.mem_map_of_mem (by decide)
  have hreported : reportedRow (after (violatedTurns 42949673)) critical =
      telemetryRow critical 42949673 42949673 := by
    rw [reportedRow, hlane]
  rw [hreported] at hrow
  have hexact := h _ rows hrows _ hrow (Nat.le_refl _)
  rw [rateExact_iff critical (Nat.le_refl _)] at hexact
  exact hexact ⟨100, by decide, by decide⟩

end ApexChainx
