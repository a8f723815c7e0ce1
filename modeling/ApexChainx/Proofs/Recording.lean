import ApexChainx.Proofs.Guards
import ApexChainx.Proofs.HistoryRefinement

/-!
# Storing a decision

What `calculate_sla` leaves behind once it has decided to store a fresh decision: the
statistics as a function of the old ones, the telemetry as a frame, the history as the record
operation of its log, and the events in order (`recordDecision_recorded`).
-/

namespace ApexChainx

open Host Misc

/-- The retention limit in force. -/
def retentionLimit (s : Storage) : Nat := (s .retentionLimit).getD maxHistorySize

/-- The statistics, zeroed when they were never stored. -/
def statsOf (s : Storage) : SLAStats := (s .stats).getD SLAStats.zero

/-! ## Statistics and telemetry -/

/-- A `u64` counter after one more, and the event of a clamp. -/
def bumpCounter (counter : Symbol) (value : Nat) : Nat × List Event :=
  match checkedAdd 64 value 1 with
  | some v => (v, [])
  | none => (unsignedMax 64, [.statsSat counter value 1])

/-- An `i128` total after one more amount, and the event of a clamp. -/
def bumpTotal (counter : Symbol) (value amount : Int) : Int × List Event :=
  match checked 128 (value + amount) with
  | some v => (v, [])
  | none =>
    (if amount > 0 then signedMax 128 else signedMin 128, [.statsSat counter value amount])

/-- The statistics after a decision, and the events of the clamps that fired. -/
def statsAfter (stats : SLAStats) (result : SLAResult) : SLAStats × List Event :=
  let calculations := bumpCounter totcalc stats.total_calculations
  if result.status = .viol then
    let violations := bumpCounter totviol stats.total_violations
    let penalties := bumpTotal totpen stats.total_penalties (-result.amount)
    ({ stats with
        total_calculations := calculations.1
        total_violations := violations.1
        total_penalties := penalties.1 },
      calculations.2 ++ violations.2 ++ penalties.2)
  else
    let rewards := bumpTotal totrew stats.total_rewards result.amount
    ({ stats with total_calculations := calculations.1, total_rewards := rewards.1 },
      calculations.2 ++ rewards.2)

/-- The environment with some events added. -/
def publishAll (env : ContractEnv) (evs : List Event) : ContractEnv :=
  { env with events := env.events ++ evs }

@[simp] theorem publishAll_nil (env : ContractEnv) : publishAll env [] = env := by
  simp [publishAll]

@[simp] theorem publishAll_storage (env : ContractEnv) (evs : List Event) :
    (publishAll env evs).storage = env.storage := rfl

@[simp] theorem publishAll_events (env : ContractEnv) (evs : List Event) :
    (publishAll env evs).events = env.events ++ evs := rfl

@[simp] theorem publishAll_publishAll (env : ContractEnv) (evs evs' : List Event) :
    publishAll (publishAll env evs) evs' = publishAll env (evs ++ evs') := by
  simp [publishAll]

section Recording

variable {α : Type} (f : Frame Address) (env env' : ContractEnv)

@[simp] theorem returns_incrementCounter_bind (counter : Symbol) (value : Nat)
    (g : Nat → Contract α) (b : α) :
    (incrementCounter counter value >>= g).Returns f env b env' ↔
      (g (bumpCounter counter value).1).Returns f
        (publishAll env (bumpCounter counter value).2) b env' := by
  unfold incrementCounter bumpCounter
  cases checkedAdd 64 value 1 with
  | some v => simp
  | none => exact Iff.rfl

@[simp] theorem returns_incrementTotal_bind (counter : Symbol) (value amount : Int)
    (g : Int → Contract α) (b : α) :
    (incrementTotal counter value amount >>= g).Returns f env b env' ↔
      (g (bumpTotal counter value amount).1).Returns f
        (publishAll env (bumpTotal counter value amount).2) b env' := by
  unfold incrementTotal bumpTotal
  cases checked 128 (value + amount) with
  | some v => simp
  | none => exact Iff.rfl

/-- The statistics update of `calculate_sla`. -/
theorem returns_recordStats (result : SLAResult) (u : Unit) :
    (recordStats result).Returns f env u env' ↔
      env' = (publishAll env (statsAfter (statsOf env.storage) result).2).set .stats
        (statsAfter (statsOf env.storage) result).1 := by
  by_cases h : result.status = .viol <;>
    simp [recordStats, incrementStats, statsAfter, statsOf, h]

end Recording

/-- The keys `record_severity_telemetry` writes. -/
def isTelemetryKey : StorageKey → Bool
  | .severityCalcCounts | .severityViolCounts | .lastCalculationTs | .lastViolationTs => true
  | .customTelemetry => true
  | _ => false

theorem recordSeverityTelemetry_total (severity : Symbol) (met : Bool) :
    (recordSeverityTelemetry severity met).Total := by
  unfold recordSeverityTelemetry
  split
  · exact .bind (.getD _ _) fun _ => .bind (.getD _ _) fun _ => .bind (.getD _ _) fun _ =>
      .bind (.getD _ _) fun _ => .bind .timestamp fun _ => .bind (.set _ _) fun _ =>
        .bind (.set _ _) fun _ => .bind (.set _ _) fun _ => .set _ _
  · exact .bind (.getD _ _) fun _ => .bind .timestamp fun _ => .set _ _

/-- Telemetry publishes nothing and writes its own keys only. -/
theorem recordSeverityTelemetry_frame {severity : Symbol} {met : Bool} {f : Frame Address}
    {env env' : ContractEnv} {u : Unit}
    (hr : (recordSeverityTelemetry severity met).Returns f env u env') :
    env'.events = env.events ∧
      ∀ k, isTelemetryKey k = false → env'.storage k = env.storage k := by
  unfold recordSeverityTelemetry at hr
  split at hr
  · simp only [recordCanonicalTelemetry, Contract.getD, Contract.set, Prog.returns_getD_bind,
      Prog.returns_timestamp_bind, Prog.returns_set_bind, Prog.returns_set] at hr
    subst hr
    exact ⟨rfl, fun k hk => by cases k <;> simp_all [isTelemetryKey]⟩
  · simp only [recordCustomSeverityTelemetry, Contract.getD, Contract.set,
      Prog.returns_getD_bind, Prog.returns_timestamp_bind, Prog.returns_set] at hr
    subst hr
    exact ⟨rfl, fun k hk => by cases k <;> simp_all [isTelemetryKey]⟩

theorem recordSeverityTelemetry_shards {severity : Symbol} {met : Bool} {f : Frame Address}
    {env env' : ContractEnv} {u : Unit}
    (hr : (recordSeverityTelemetry severity met).Returns f env u env') :
    History.shards env'.storage = History.shards env.storage := by
  refine History.shards_congr fun k hk => (recordSeverityTelemetry_frame hr).2 k ?_
  have := hk.1
  cases k <;> simp_all [History.isHistoryKey, isTelemetryKey]

/-! ## Calculation -/

/-- What storing the decision `result` leaves of the storage `s`. -/
structure Recorded (s : Storage) (result : SLAResult) (s' : Storage) : Prop where
  log : History.shards s' =
    (History.shards s).record SLAResult.outage_id 32 (retentionLimit s) result
  historyLen : s' .historyLen = some (History.len s')
  stats : s' .stats = some (statsAfter (statsOf s) result).1
  other : ∀ k, History.isHistoryKey k = false → isTelemetryKey k = false → k ≠ .stats →
    s' k = s k

/-- The events of a stored decision. -/
def recordedEvents (f : Frame Address) (s : Storage) (severity : Symbol) (result : SLAResult) :
    List Event :=
  (statsAfter (statsOf s) result).2 ++
    [.slaCalc severity result,
      .settleIntent severity result (generateCorrelationId result.outage_id f.sequence)]

/-- The outage may be given a fresh decision of the generation `hash`. -/
def Admits (s : Storage) (outage_id : Symbol) (hash : Nat) : Prop :=
  ∀ prev, History.latestForOutage s outage_id = some prev →
    prev.config_version_hash ≠ hash ∧
      (History.entryIndicesForOutage s outage_id).length < maxRecalcsPerOutage

theorem recordDecision_total (severity : Symbol) (result : SLAResult) (indices : List Nat) :
    (recordDecision severity result indices).Total := by
  refine .bind (recordSeverityTelemetry_total _ _) fun _ => .bind (.getD _ _) fun _ =>
    .bind (History.appendEntry_total _ _ _) fun _ => .bind ?_ fun _ => .bind .sequence fun _ =>
      .bind (.publish _) fun _ => .bind (.publish _) fun _ => .pure _
  exact fun f env => ⟨(), _, (returns_recordStats f env _ result ()).mpr rfl⟩

/-- Storing a decision is the telemetry, the append, the statistics and the two events. -/
theorem recordDecision_stages {severity : Symbol} {result r : SLAResult} {indices : List Nat}
    {f : Frame Address} {env env' : ContractEnv}
    (hr : (recordDecision severity result indices).Returns f env r env') :
    ∃ env₁ env₂,
      (recordSeverityTelemetry severity (result.status ≠ .viol)).Returns f env () env₁ ∧
      (History.appendEntry result (retentionLimit env₁.storage) indices).Returns f env₁ () env₂ ∧
      r = result ∧
      env' = (((publishAll env₂ (statsAfter (statsOf env₂.storage) result).2).set .stats
        (statsAfter (statsOf env₂.storage) result).1).publish (.slaCalc severity result)).publish
        (.settleIntent severity result
          (generateCorrelationId result.outage_id f.sequence)) := by
  simp only [recordDecision] at hr
  obtain ⟨_, env₁, htelemetry, hr⟩ := (Prog.returns_bind ..).mp hr
  simp only [Contract.getD, Prog.returns_getD_bind] at hr
  obtain ⟨_, env₂, happend, hr⟩ := (Prog.returns_bind ..).mp hr
  obtain ⟨_, env₃, hstats, hr⟩ := (Prog.returns_bind ..).mp hr
  rw [returns_recordStats] at hstats
  simp only [Contract.publish, Prog.returns_sequence_bind, Prog.returns_publish_bind,
    Prog.returns_pure] at hr
  obtain ⟨rfl, rfl⟩ := hr
  exact ⟨env₁, env₂, htelemetry, happend, rfl, by rw [hstats]⟩

theorem recordDecision_recorded {severity : Symbol} {result r : SLAResult} {indices : List Nat}
    {f : Frame Address} {env env' : ContractEnv}
    (hr : (recordDecision severity result indices).Returns f env r env')
    (hi : indices = History.entryIndicesForOutage env.storage result.outage_id) :
    r = result ∧ Recorded env.storage result env'.storage ∧
      env'.events = env.events ++ recordedEvents f env.storage severity result := by
  obtain ⟨env₁, env₂, htelemetry, happend, rfl, rfl⟩ := recordDecision_stages hr
  obtain ⟨hevents₁, hother₁⟩ := recordSeverityTelemetry_frame htelemetry
  have hlog₁ := recordSeverityTelemetry_shards htelemetry
  have hlimit₁ : retentionLimit env₁.storage = retentionLimit env.storage := by
    simp only [retentionLimit, hother₁ .retentionLimit rfl]
  have hindices : indices = History.entryIndicesForOutage env₁.storage r.outage_id :=
    hi.trans (congrFun (congrArg ShardedLog.index hlog₁.symm) _)
  rw [hindices] at happend
  obtain ⟨hleaves, hlen⟩ := History.appendEntry_leaves happend
  have hstats₂ : statsOf env₂.storage = statsOf env.storage := by
    simp only [statsOf, hleaves.other .stats rfl, hother₁ .stats rfl]
  refine ⟨rfl, ⟨?_, ?_, ?_, ?_⟩, ?_⟩
  · simp only [Env.publish_storage, Env.set_storage, publishAll_storage]
    rw [History.shards_set_of_other rfl, hleaves.log, hlog₁, hlimit₁]
  · simpa [History.len, History.head, History.tail] using hlen
  · simp [hstats₂]
  · intro k hh ht hs
    simp only [Env.publish_storage, Env.set_storage, publishAll_storage]
    rw [Store.set_other _ _ hs, hleaves.other k hh, hother₁ k ht]
  · simp [recordedEvents, hstats₂, hleaves.events, hevents₁]

end ApexChainx
