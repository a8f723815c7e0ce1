import ApexChainx.Proofs.Recording

/-!
# The telemetry lanes

The four counters and stamps of one severity, whichever words they are packed in: lane `i` of four
words for a canonical severity, the four lanes of one word for all custom ones. Recording a
calculation acts on the lane of its severity as `Lane.record` does, and on no other
(`recordSeverityTelemetry_lane`).
-/

namespace ApexChainx

open Host Misc

/-! ## Lanes of a word -/

theorem getLsbD_laneMask (b : Nat) : (0xFFFFFFFF#128).getLsbD b = decide (b < 32) := by
  rw [show (0xFFFFFFFF#128) = BitVec.ofNat 128 (2 ^ 32 - 1) from rfl, BitVec.getLsbD_ofNat,
    Nat.testBit_two_pow_sub_one]
  by_cases h : b < 32
  · simp [h, show b < 128 by omega]
  · simp [h]

theorem testBit_countLane (packed : BitVec 128) (index b : Nat) :
    (countLane packed index).testBit b = (decide (b < 32) && packed.getLsbD (index * 32 + b)) := by
  rw [countLane, BitVec.testBit_toNat, BitVec.getLsbD_and, BitVec.getLsbD_ushiftRight,
    getLsbD_laneMask, Bool.and_comm]

/-- A lane holds a `u32`. -/
theorem countLane_lt (packed : BitVec 128) (index : Nat) : countLane packed index < 2 ^ 32 := by
  have hmask : (0xFFFFFFFF#128).toNat < 2 ^ 32 := by decide
  rw [countLane, BitVec.toNat_and]
  exact Nat.lt_of_le_of_lt Nat.and_le_right hmask

section Words

variable {packed : BitVec 128} {i j value : Nat}

theorem getLsbD_setCountLane {b : Nat} (hj : j < 4) (hb : b < 32) (hv : value < 2 ^ 32) :
    (setCountLane packed i value).getLsbD (j * 32 + b) =
      if j = i then value.testBit b else packed.getLsbD (j * 32 + b) := by
  have hmask : (0xFFFFFFFF#128 <<< (i * 32)).getLsbD (j * 32 + b) = decide (j = i) := by
    rw [BitVec.getLsbD_shiftLeft, getLsbD_laneMask]
    by_cases h : j = i
    · subst h
      simp [hb]
      omega
    · simp [h]
      omega
  have hvalue : (BitVec.ofNat 128 value <<< (i * 32)).getLsbD (j * 32 + b) =
      (decide (j = i) && value.testBit b) := by
    rw [BitVec.getLsbD_shiftLeft, BitVec.getLsbD_ofNat]
    rcases Nat.lt_trichotomy j i with h | rfl | h
    · have hlow : j * 32 + b < i * 32 := by omega
      simp [hlow, Nat.ne_of_lt h]
    · have hfits : j * 32 + b < 128 := by omega
      simp [hfits]
      omega
    · have hhigh : value.testBit (j * 32 + b - i * 32) = false :=
        Nat.testBit_lt_two_pow (Nat.lt_of_lt_of_le hv (Nat.pow_le_pow_right (by omega) (by omega)))
      simp [hhigh, Nat.ne_of_gt h]
  have hfits : j * 32 + b < 128 := by omega
  rw [setCountLane, BitVec.getLsbD_or, BitVec.getLsbD_and, BitVec.getLsbD_not, hmask, hvalue]
  by_cases h : j = i <;> simp [h, hfits]

/-- A `u32` written to a lane is read back from that lane, and changes no other. -/
theorem countLane_setCountLane (hj : j < 4) (hv : value < 2 ^ 32) :
    countLane (setCountLane packed i value) j = if j = i then value else countLane packed j := by
  apply Nat.eq_of_testBit_eq
  intro b
  rw [testBit_countLane]
  by_cases hb : b < 32
  · rw [getLsbD_setCountLane hj hb hv]
    by_cases h : j = i <;> simp [hb, h, testBit_countLane]
  · have hvb : value.testBit b = false :=
      Nat.testBit_lt_two_pow (Nat.lt_of_lt_of_le hv (Nat.pow_le_pow_right (by omega) (by omega)))
    by_cases h : j = i <;> simp [hb, h, hvb, testBit_countLane]

theorem saturatingAdd_lt (a b : Nat) : saturatingAdd 32 a b < 2 ^ 32 := by
  simp only [saturatingAdd, unsignedMax]
  omega

theorem laneTimestamp_lt (now : Nat) : laneTimestamp now < 2 ^ 32 := by
  by_cases h : now > unsignedMax 32 <;> simp only [laneTimestamp, h, if_true, if_false] <;>
    simp only [unsignedMax] at * <;> omega

theorem countLane_resetLane (hj : j < 4) (stale : Bool) :
    countLane (resetLane stale packed i) j =
      if j = i ∧ stale = true then 0 else countLane packed j := by
  unfold resetLane
  cases stale
  · simp
  · simp [countLane_setCountLane hj (Nat.two_pow_pos 32)]

theorem countLane_bumpLane (hj : j < 4) :
    countLane (bumpLane packed i) j =
      if j = i then saturatingAdd 32 (countLane packed i) 1 else countLane packed j :=
  countLane_setCountLane hj (saturatingAdd_lt _ 1)

theorem countLane_stamp (hj : j < 4) (now : Nat) :
    countLane (setCountLane packed i (laneTimestamp now)) j =
      if j = i then laneTimestamp now else countLane packed j :=
  countLane_setCountLane hj (laneTimestamp_lt now)

end Words

/-! ## The lane of a severity -/

/-- The counters of a severity, and the times they were last stamped with. -/
structure Lane where
  calculations : Nat
  violations : Nat
  lastCalculation : Nat
  lastViolation : Nat
  deriving DecidableEq, Repr

/-- The lane after one more calculation at `now`. -/
def Lane.record (now : Nat) (met : Bool) (lane : Lane) : Lane :=
  let violations := if isStale now lane.lastViolation then 0 else lane.violations
  { calculations :=
      saturatingAdd 32 (if isStale now lane.lastCalculation then 0 else lane.calculations) 1
    violations := if met then violations else saturatingAdd 32 violations 1
    lastCalculation := laneTimestamp now
    lastViolation := if met then lane.lastViolation else laneTimestamp now }

/-- A telemetry word, zero when it was never stored. -/
def countsOf (word : Option (BitVec 128)) : BitVec 128 := word.getD 0

/-- The lane a severity has in a storage. -/
def telemetryLane (s : Storage) (severity : Symbol) : Lane :=
  match canonicalSeverityIndex severity with
  | some index =>
    { calculations := countLane (countsOf (s .severityCalcCounts)) index
      violations := countLane (countsOf (s .severityViolCounts)) index
      lastCalculation := countLane (countsOf (s .lastCalculationTs)) index
      lastViolation := countLane (countsOf (s .lastViolationTs)) index }
  | none =>
    { calculations := countLane (countsOf (s .customTelemetry)) 0
      violations := countLane (countsOf (s .customTelemetry)) 1
      lastCalculation := countLane (countsOf (s .customTelemetry)) 2
      lastViolation := countLane (countsOf (s .customTelemetry)) 3 }

theorem canonicalSeverityIndex_lt {severity : Symbol} {index : Nat}
    (h : canonicalSeverityIndex severity = some index) : index < 4 := by
  unfold canonicalSeverityIndex at h
  repeat' split at h
  all_goals cases h <;> decide

/-- Storages with the same telemetry words have the same lanes. -/
theorem telemetryLane_congr {s s' : Storage} (h : ∀ k, isTelemetryKey k = true → s k = s' k)
    (severity : Symbol) : telemetryLane s severity = telemetryLane s' severity := by
  simp only [telemetryLane, h .severityCalcCounts rfl, h .severityViolCounts rfl,
    h .lastCalculationTs rfl, h .lastViolationTs rfl, h .customTelemetry rfl]

theorem telemetryLane_of_canonical {s : Storage} {severity : Symbol} {index : Nat}
    (h : canonicalSeverityIndex severity = some index) :
    telemetryLane s severity =
      ⟨countLane (countsOf (s .severityCalcCounts)) index,
        countLane (countsOf (s .severityViolCounts)) index,
        countLane (countsOf (s .lastCalculationTs)) index,
        countLane (countsOf (s .lastViolationTs)) index⟩ := by
  simp only [telemetryLane, h]

theorem telemetryLane_of_custom {s : Storage} {severity : Symbol}
    (h : canonicalSeverityIndex severity = none) :
    telemetryLane s severity =
      ⟨countLane (countsOf (s .customTelemetry)) 0, countLane (countsOf (s .customTelemetry)) 1,
        countLane (countsOf (s .customTelemetry)) 2,
        countLane (countsOf (s .customTelemetry)) 3⟩ := by
  simp only [telemetryLane, h]

@[simp] theorem countLane_zero (index : Nat) : countLane 0#128 index = 0 := by
  simp [countLane]

/-- A storage that was never written has empty lanes. -/
theorem telemetryLane_empty (severity : Symbol) :
    telemetryLane Store.empty severity = ⟨0, 0, 0, 0⟩ := by
  cases h : canonicalSeverityIndex severity with
  | some index => simp [telemetryLane_of_canonical h, countsOf]
  | none => simp [telemetryLane_of_custom h, countsOf]

section Recording

variable {f : Frame Address} {env env' : ContractEnv} {u : Unit} {met : Bool}

theorem recordCanonicalTelemetry_lane {index j : Nat} (hj : j < 4)
    (hr : (recordCanonicalTelemetry index met).Returns f env u env') {severity : Symbol}
    (hs : canonicalSeverityIndex severity = some j) :
    telemetryLane env'.storage severity =
      if j = index then (telemetryLane env.storage severity).record f.timestamp met
      else telemetryLane env.storage severity := by
  simp only [recordCanonicalTelemetry, Contract.getD, Contract.set, Prog.returns_getD_bind,
    Prog.returns_timestamp_bind, Prog.returns_set_bind, Prog.returns_set] at hr
  subst hr
  rw [telemetryLane_of_canonical hs, telemetryLane_of_canonical hs]
  by_cases h : j = index
  · subst h
    cases met <;>
      simp [countsOf, Lane.record, countLane_resetLane hj, countLane_bumpLane hj,
        countLane_stamp hj] <;> exact ⟨rfl, rfl⟩
  · cases met <;>
      simp [countsOf, h, countLane_resetLane hj, countLane_bumpLane hj, countLane_stamp hj]

theorem recordCustomSeverityTelemetry_lane
    (hr : (recordCustomSeverityTelemetry met).Returns f env u env') {severity : Symbol}
    (hs : canonicalSeverityIndex severity = none) :
    telemetryLane env'.storage severity =
      (telemetryLane env.storage severity).record f.timestamp met := by
  simp only [recordCustomSeverityTelemetry, Contract.getD, Contract.set, Prog.returns_getD_bind,
    Prog.returns_timestamp_bind, Prog.returns_set] at hr
  subst hr
  rw [telemetryLane_of_custom hs, telemetryLane_of_custom hs]
  cases met <;>
    simp [countsOf, Lane.record, countLane_resetLane, countLane_bumpLane, countLane_stamp] <;>
    exact ⟨rfl, rfl⟩

/-- The canonical and the custom severities are recorded in words of their own. -/
theorem recordCanonicalTelemetry_custom {index : Nat}
    (hr : (recordCanonicalTelemetry index met).Returns f env u env') :
    env'.storage .customTelemetry = env.storage .customTelemetry := by
  simp only [recordCanonicalTelemetry, Contract.getD, Contract.set, Prog.returns_getD_bind,
    Prog.returns_timestamp_bind, Prog.returns_set_bind, Prog.returns_set] at hr
  subst hr
  simp

theorem recordCustomSeverityTelemetry_canonical
    (hr : (recordCustomSeverityTelemetry met).Returns f env u env') {k : StorageKey}
    (hk : k ≠ .customTelemetry) : env'.storage k = env.storage k := by
  simp only [recordCustomSeverityTelemetry, Contract.getD, Contract.set, Prog.returns_getD_bind,
    Prog.returns_timestamp_bind, Prog.returns_set] at hr
  subst hr
  exact Store.set_other _ _ hk

end Recording

/-- Recording a calculation updates the lane of its severity and leaves the other lanes. -/
theorem recordSeverityTelemetry_lane {severity : Symbol} {met : Bool} {f : Frame Address}
    {env env' : ContractEnv} {u : Unit}
    (hr : (recordSeverityTelemetry severity met).Returns f env u env') (other : Symbol) :
    telemetryLane env'.storage other =
      if canonicalSeverityIndex other = canonicalSeverityIndex severity then
        (telemetryLane env.storage other).record f.timestamp met
      else telemetryLane env.storage other := by
  unfold recordSeverityTelemetry at hr
  cases hseverity : canonicalSeverityIndex severity with
  | some index =>
    simp only [hseverity] at hr
    cases hother : canonicalSeverityIndex other with
    | some j =>
      rw [recordCanonicalTelemetry_lane (canonicalSeverityIndex_lt hother) hr hother]
      simp only [Option.some.injEq]
    | none =>
      rw [if_neg (by simp), telemetryLane_of_custom hother, telemetryLane_of_custom hother,
        recordCanonicalTelemetry_custom hr]
  | none =>
    simp only [hseverity] at hr
    cases hother : canonicalSeverityIndex other with
    | some j =>
      have hkeeps := fun k => recordCustomSeverityTelemetry_canonical hr (k := k)
      rw [if_neg (by simp), telemetryLane_of_canonical hother, telemetryLane_of_canonical hother,
        hkeeps .severityCalcCounts (by simp), hkeeps .severityViolCounts (by simp),
        hkeeps .lastCalculationTs (by simp), hkeeps .lastViolationTs (by simp)]
    | none =>
      rw [recordCustomSeverityTelemetry_lane hr hother, if_pos rfl]

/-- Storing a decision records a calculation in the lane of its severity. -/
theorem recordDecision_lane {severity : Symbol} {result r : SLAResult} {indices : List Nat}
    {f : Frame Address} {env env' : ContractEnv}
    (hr : (recordDecision severity result indices).Returns f env r env')
    (hi : indices = History.entryIndicesForOutage env.storage result.outage_id) (other : Symbol) :
    telemetryLane env'.storage other =
      if canonicalSeverityIndex other = canonicalSeverityIndex severity then
        (telemetryLane env.storage other).record f.timestamp (result.status ≠ .viol)
      else telemetryLane env.storage other := by
  obtain ⟨env₁, env₂, htelemetry, happend, -, rfl⟩ := recordDecision_stages hr
  have hlog₁ := recordSeverityTelemetry_shards htelemetry
  have hindices : indices = History.entryIndicesForOutage env₁.storage result.outage_id :=
    hi.trans (congrFun (congrArg ShardedLog.index hlog₁.symm) _)
  rw [hindices] at happend
  obtain ⟨hleaves, -⟩ := History.appendEntry_leaves happend
  rw [← recordSeverityTelemetry_lane htelemetry other]
  apply telemetryLane_congr
  intro k hk
  have hhistory : History.isHistoryKey k = false := by
    cases k <;> first | rfl | cases hk
  have hstats : k ≠ .stats := by
    rintro rfl
    cases hk
  simp only [Env.publish_storage, Env.set_storage, publishAll_storage]
  rw [Store.set_other _ _ hstats, hleaves.other k hhistory]

end ApexChainx
