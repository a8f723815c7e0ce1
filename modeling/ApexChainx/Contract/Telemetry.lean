import ApexChainx.Contract.Access
import ApexChainx.Contract.Config

/-!
# Statistics and telemetry

`increment_stats` and the per-severity weekly counters of `lib.rs`. A counter word packs four
32-bit lanes.
-/

namespace ApexChainx

open Host Misc

/-! ## Cumulative statistics -/

/-- The name a `stats_sat` event gives to `total_calculations`. -/
def totcalc : Symbol := symbolShort "totcalc"

/-- The name of `total_violations`. -/
def totviol : Symbol := symbolShort "totviol"

/-- The name of `total_rewards`. -/
def totrew : Symbol := symbolShort "totrew"

/-- The name of `total_penalties`. -/
def totpen : Symbol := symbolShort "totpen"

/-- `emit_stats_saturated`. -/
def emitStatsSaturated (counter : Symbol) (previous_value attempted_increment : Int) :
    Contract Unit :=
  Contract.publish (.statsSat counter previous_value attempted_increment)

/-- One `u64` counter of `increment_stats`: add one, or cap it with a `stats_sat` event. -/
def incrementCounter (counter : Symbol) (value : Nat) : Contract Nat :=
  match checkedAdd 64 value 1 with
  | some v => pure v
  | none => do
    emitStatsSaturated counter value 1
    pure (unsignedMax 64)

/-- One `i128` total of `increment_stats`: add the amount, or cap it with a `stats_sat`
event. -/
def incrementTotal (counter : Symbol) (value amount : Int) : Contract Int :=
  match checked 128 (value + amount) with
  | some v => pure v
  | none => do
    emitStatsSaturated counter value amount
    pure (if amount > 0 then signedMax 128 else signedMin 128)

/-- `increment_stats`. -/
def incrementStats (met : Bool) (reward penalty : Int) : Contract Unit := do
  let stats ← Contract.getD .stats SLAStats.zero
  let total_calculations ← incrementCounter totcalc stats.total_calculations
  if met then do
    let total_rewards ← incrementTotal totrew stats.total_rewards reward
    Contract.set .stats
      { stats with total_calculations := total_calculations, total_rewards := total_rewards }
  else do
    let total_violations ← incrementCounter totviol stats.total_violations
    let total_penalties ← incrementTotal totpen stats.total_penalties penalty
    Contract.set .stats
      { stats with
        total_calculations := total_calculations
        total_violations := total_violations
        total_penalties := total_penalties }

/-! ## Weekly telemetry -/

/-- `count_lane`. -/
def countLane (packed : BitVec 128) (index : Nat) : Nat :=
  ((packed >>> (index * 32)) &&& 0xFFFFFFFF#128).toNat

/-- `set_count_lane`. -/
def setCountLane (packed : BitVec 128) (index value : Nat) : BitVec 128 :=
  let mask := ~~~(0xFFFFFFFF#128 <<< (index * 32))
  (packed &&& mask) ||| (BitVec.ofNat 128 value <<< (index * 32))

/-- The seven days after which a lane is reset. -/
def weekSeconds : Nat := 7 * 24 * 60 * 60

/-- Whether a lane last stamped at `last` is stale at `now`. -/
def isStale (now last : Nat) : Bool := last ≠ 0 ∧ now - last ≥ weekSeconds

/-- Reset a lane when it is stale. -/
def resetLane (stale : Bool) (packed : BitVec 128) (index : Nat) : BitVec 128 :=
  if stale then setCountLane packed index 0 else packed

/-- Count one more in a lane, saturating at `u32::MAX`. -/
def bumpLane (packed : BitVec 128) (index : Nat) : BitVec 128 :=
  setCountLane packed index (saturatingAdd 32 (countLane packed index) 1)

/-- The timestamp stored in a lane: `now`, capped at `u32::MAX`. -/
def laneTimestamp (now : Nat) : Nat := if now > unsignedMax 32 then unsignedMax 32 else now

/-- `record_custom_severity_telemetry`. -/
def recordCustomSeverityTelemetry (met : Bool) : Contract Unit := do
  let counters ← Contract.getD .customTelemetry 0
  let now ← Prog.timestamp
  let calc_stale := isStale now (countLane counters 2)
  let violation_stale := isStale now (countLane counters 3)
  let counters := resetLane violation_stale (resetLane calc_stale counters 0) 1
  let counters := bumpLane counters 0
  let counters := if met then counters else bumpLane counters 1
  let counters := setCountLane counters 2 (laneTimestamp now)
  let counters := if met then counters else setCountLane counters 3 (laneTimestamp now)
  Contract.set .customTelemetry counters

/-- The canonical branch of `record_severity_telemetry`, for the lane `index`. -/
def recordCanonicalTelemetry (index : Nat) (met : Bool) : Contract Unit := do
  let calculations ← Contract.getD .severityCalcCounts 0
  let violations ← Contract.getD .severityViolCounts 0
  let last_calculations ← Contract.getD .lastCalculationTs 0
  let last_violations ← Contract.getD .lastViolationTs 0
  let now ← Prog.timestamp
  let calc_stale := isStale now (countLane last_calculations index)
  let violation_stale := isStale now (countLane last_violations index)
  let calculations := bumpLane (resetLane calc_stale calculations index) index
  let violations := resetLane violation_stale violations index
  let violations := if met then violations else bumpLane violations index
  let last_calculations := setCountLane last_calculations index (laneTimestamp now)
  let last_violations :=
    if met then last_violations else setCountLane last_violations index (laneTimestamp now)
  Contract.set .severityCalcCounts calculations
  Contract.set .severityViolCounts violations
  Contract.set .lastCalculationTs last_calculations
  Contract.set .lastViolationTs last_violations

/-- `record_severity_telemetry`: a custom severity has no canonical lane. -/
def recordSeverityTelemetry (severity : Symbol) (met : Bool) : Contract Unit :=
  match canonicalSeverityIndex severity with
  | some index => recordCanonicalTelemetry index met
  | none => recordCustomSeverityTelemetry met

/-- `SeverityTelemetry`. -/
structure SeverityTelemetry where
  severity : Symbol
  calculations : Nat
  violations : Nat
  violation_rate : Nat
  deriving DecidableEq, Repr

/-- `CUSTOM_TELEMETRY_SEVERITY`. -/
def customTelemetrySeverity : Symbol := symbolShort "custom"

/-- The row of `get_severity_telemetry` for one severity. -/
def telemetryRow (severity : Symbol) (calc_count violation_count : Nat) : SeverityTelemetry where
  severity := severity
  calculations := calc_count
  violations := violation_count
  violation_rate :=
    if calc_count = 0 then 0 else min (saturatingMul 32 violation_count 100 / calc_count) 100

/-- `get_severity_telemetry`. -/
def getSeverityTelemetry (s : Storage) : Except SLAError (List SeverityTelemetry) := do
  checkVersion s
  let calculations := (s .severityCalcCounts).getD 0
  let violations := (s .severityViolCounts).getD 0
  let telemetry := canonicalSeverities.zipIdx.map fun (severity, index) =>
    telemetryRow severity (countLane calculations index) (countLane violations index)
  let custom_counters := (s .customTelemetry).getD 0
  if (customConfigs s).len > 0 ∨ custom_counters ≠ 0 then
    pure (telemetry ++ [telemetryRow customTelemetrySeverity (countLane custom_counters 0)
      (countLane custom_counters 1)])
  else pure telemetry

end ApexChainx
