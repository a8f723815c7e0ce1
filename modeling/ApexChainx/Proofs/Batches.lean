import Mathlib.Data.List.DropRight
import ApexChainx.Proofs.Health
import ApexChainx.Proofs.SharedCalls
import ApexChainx.Proofs.Telemetry

/-!
# The order of the submissions of a ledger

A backend submits the outages of one ledger in some order. For outages that are all different, and
none of which loses an entry to the eviction, the order is of no consequence: every submission is
answered as it would be alone, and afterwards the storage is the same but for the slots the
decisions are kept in (`submissions_commute`).
-/

namespace ApexChainx

open Host Misc

/-! ## The last entries of a list -/

section Last

variable {α : Type} {l new : List α} {n m : Nat}

theorem rtake_of_length_le (h : l.length ≤ n) : l.rtake n = l := by
  rw [List.rtake, Nat.sub_eq_zero_of_le h, List.drop_zero]

theorem rtake_concat (hn : 0 < n) (l : List α) (a : α) :
    (l ++ [a]).rtake n =
      if (l.rtake n).length + 1 > n then (l.rtake n ++ [a]).tail else l.rtake n ++ [a] := by
  by_cases h : l.length < n
  · rw [rtake_of_length_le (l := l) (by omega), if_neg (by omega),
      rtake_of_length_le (by simp; omega)]
  · have hlen : (l.rtake n).length = n := by simp [List.rtake]; omega
    have hsplit : l.rtake n ++ [a] = (l ++ [a]).drop (l.length - n) := by
      rw [List.rtake, List.drop_append_of_le_length (by omega)]
    rw [if_pos (by omega), hsplit, List.tail_drop, List.rtake]
    congr 1
    simp
    omega

/-- The last entries of a list that grew by some of them. -/
theorem rtake_append (h : new.length ≤ n) :
    (l ++ new).rtake n = l.drop (l.length + new.length - n) ++ new := by
  rw [List.rtake, List.length_append, List.drop_append_of_le_length (by omega)]

/-- What the dropped entries do not have is not lost. -/
theorem filter_drop (p : α → Bool) (h : ∀ a ∈ l.take m, p a = false) (hm : n ≤ m) :
    (l.drop n).filter p = l.filter p := by
  have hnone : (l.take n).filter p = [] := by
    refine List.filter_eq_nil_iff.mpr fun a ha => ?_
    simp [h a (List.take_subset_take_left l hm ha)]
  conv_rhs => rw [← List.take_append_drop n l, List.filter_append, hnone, List.nil_append]

theorem eq_of_perm_of_length_le_one {l l' : List α} (h : l.Perm l') (hone : l.length ≤ 1) :
    l = l' := by
  rcases l with _ | ⟨a, _ | ⟨b, rest⟩⟩
  · exact (List.nil_perm.mp h).symm
  · exact List.singleton_perm.mp h
  · simp at hone

end Last

/-- What is submitted, and in which ledger. -/
structure Submission where
  frame : Frame Address
  caller : Address
  outage_id : Symbol
  severity : Symbol
  mttr : Nat

/-- The submission as a transaction. -/
def Submission.tx (b : Submission) : ContractTx :=
  submission b.frame b.caller b.outage_id b.severity b.mttr

/-! ## One submission in two storages -/

/-- The keys that a submission neither counts nor records in. -/
def isBookKey (k : StorageKey) : Bool :=
  History.isHistoryKey k || isTelemetryKey k || k = .stats

/-- The storages answer the submissions for an outage alike. -/
structure SameFor (outage_id : Symbol) (s s' : Storage) : Prop where
  other : Store.Agree {k | isBookKey k = false} s s'
  latest : History.latestForOutage s outage_id = History.latestForOutage s' outage_id
  count : (History.entryIndicesForOutage s outage_id).length =
    (History.entryIndicesForOutage s' outage_id).length

/-- The first part of `calculate_sla`: the checks, and the decision. -/
def computeSubmission (caller : Address) (outage_id severity : Symbol) (mttr : Nat) :
    Contract (SLAConfig × Nat × SLAResult) := do
  Contract.reads checkVersion
  Contract.reads fun _ => validateMttrBound mttr
  Contract.reads requireNotPaused
  requireOperator caller
  let cfg ← Contract.reads (loadConfig severity)
  let hash ← Contract.reads (computeSeverityConfigHash severity)
  let now ← Prog.timestamp
  let result ← Contract.reads fun _ => computeResult outage_id mttr cfg hash now
  pure (cfg, hash, result)

/-- The second part: what becomes of the decision. -/
def settleSubmission (outage_id severity : Symbol) (mttr : Nat) (cfg : SLAConfig) (hash : Nat)
    (result : SLAResult) : Contract SLAResult := do
  let indices ← Contract.ask (History.entryIndicesForOutage · outage_id)
  let existing ← Contract.ask fun s => indices.getLast?.bind (History.readEntry s)
  settle mttr cfg hash existing indices.length
    (fun prev => .dupInput severity prev (some (mttr, cfg.threshold_minutes)))
    (recordDecision severity result indices)

theorem calculateSla_eq (caller : Address) (outage_id severity : Symbol) (mttr : Nat) :
    calculateSla caller outage_id severity mttr =
      computeSubmission caller outage_id severity mttr >>= fun computed =>
        settleSubmission outage_id severity mttr computed.1 computed.2.1 computed.2.2 := by
  simp only [computeSubmission, Prog.bind_assoc]
  rfl

section Alike

variable {f : Frame Address} {s s' : Storage} {caller : Address} {outage_id severity : Symbol}
  {mttr : Nat}

/-- Once its decision is computed the submission has passed its checks. -/
theorem submits_of_computed {computed : SLAConfig × Nat × SLAResult} {env' : ContractEnv}
    (h : (computeSubmission caller outage_id severity mttr).Returns f ⟨s, [], []⟩ computed env') :
    Submits f s caller outage_id severity mttr computed.1 computed.2.2 := by
  simp [computeSubmission] at h
  obtain ⟨version, bound, unpaused, signed, operator, cfg, config, hash, hashed, result, computes,
    rfl, -⟩ := h
  rw [computeSeverityConfigHash_of_load config] at hashed
  obtain rfl : severityConfigHash cfg = hash := by simpa using hashed
  exact ⟨⟨version, unpaused, signed, operator⟩, bound, config, computes⟩

theorem refused_of_computed {x : Fault SLAError} {env' : ContractEnv}
    (h : (computeSubmission caller outage_id severity mttr).Fails f ⟨s, [], []⟩ x env') :
    invoke exec (submission f caller outage_id severity mttr) s = ⟨s, [], .error x⟩ := by
  have hfails : (calculateSla caller outage_id severity mttr).Fails f ⟨s, [], []⟩ x env' := by
    rw [calculateSla_eq]
    exact h.bind _
  exact reply_of_fails hfails

/-- The checks of a submission do not look into the books. -/
theorem computeSubmission_keeps {rel : ContractEnv → ContractEnv → Prop}
    (hr : Agrees rel {k | isBookKey k = false}) (caller : Address) (outage_id severity : Symbol)
    (mttr : Nat) : Keeps rel (computeSubmission caller outage_id severity mttr) := by
  have hguards : ∀ k, isGuardKey k = true → k ∈ {k | isBookKey k = false} := fun k hk => by
    cases k <;> first | rfl | cases hk
  have hload : ∀ s s' : Storage, Store.Agree {k | isBookKey k = false} s s' →
      loadConfig severity s = loadConfig severity s' := fun s s' h =>
    loadConfig_of_config (h .config rfl) (customConfigs_of_key (h .customConfig rfl)) severity
  exact .bind (keeps_checkVersion hguards hr) fun _ => .bind (.reads hr fun _ _ _ => rfl) fun _ =>
    .bind (keeps_requireNotPaused hr rfl) fun _ =>
    .bind (keeps_requireOperator hguards hr _) fun _ => .bind (.reads hr hload) fun _ =>
    .bind (.reads hr fun s s' h => by simp only [computeSeverityConfigHash, hload s s' h]) fun _ =>
    .bind .timestamp fun _ => .bind (.reads hr fun _ _ _ => rfl) fun _ => .pure _

/-- On storages with the same books outside the slots of the outage the submission is refused
alike, or computes the same decision. -/
theorem refused_or_submits (h : Store.Agree {k | isBookKey k = false} s s') (f : Frame Address)
    (caller : Address) (outage_id severity : Symbol) (mttr : Nat) :
    (∃ x, invoke exec (submission f caller outage_id severity mttr) s = ⟨s, [], .error x⟩ ∧
      invoke exec (submission f caller outage_id severity mttr) s' = ⟨s', [], .error x⟩) ∨
    ∃ cfg result, Submits f s caller outage_id severity mttr cfg result ∧
      Submits f s' caller outage_id severity mttr cfg result := by
  have hagrees : Agrees (fun env env' : ContractEnv => env = ⟨s, [], []⟩ ∧ env' = ⟨s', [], []⟩)
      {k | isBookKey k = false} := by
    rintro _ _ ⟨rfl, rfl⟩
    exact h
  have hmeets := computeSubmission_keeps hagrees caller outage_id severity mttr f ⟨s, [], []⟩
    ⟨s', [], []⟩ ⟨rfl, rfl⟩
  generalize hs : computeSubmission caller outage_id severity mttr f ⟨s, [], []⟩ = left at hmeets
  generalize hs' : computeSubmission caller outage_id severity mttr f ⟨s', [], []⟩ = right
    at hmeets
  cases hmeets with
  | returned hrel => exact .inr ⟨_, _, submits_of_computed hs, submits_of_computed hs'⟩
  | stopped => exact .inl ⟨_, refused_of_computed hs, refused_of_computed hs'⟩

end Alike

/-- The submission stores the decision. -/
structure Stored (b : Submission) (s : Storage) (result : SLAResult) (s' : Storage) : Prop where
  outcome : invoke exec b.tx s =
    ⟨s', recordedEvents b.frame s b.severity result, .ok (.decision result)⟩
  records : ∃ cfg, Records b.frame s b.tx.call (.decision result) s'
    (recordedEvents b.frame s b.severity result) b.severity cfg result

theorem Submits.stored {b : Submission} {s : Storage} {cfg : SLAConfig} {result : SLAResult}
    (h : Submits b.frame s b.caller b.outage_id b.severity b.mttr cfg result)
    (admits : Admits s b.outage_id (severityConfigHash cfg)) :
    ∃ s', Stored b s result s' := by
  obtain ⟨s', hi, hr⟩ := h.recorded admits
  exact ⟨s', hi, cfg, hr⟩

/-- Storages that answer an outage alike are left as they are, with the same reply, or given the
same decision. -/
theorem SameFor.alike {b : Submission} {s s' : Storage} (h : SameFor b.outage_id s s') :
    (∃ reply, invoke exec b.tx s = ⟨s, [], reply⟩ ∧ invoke exec b.tx s' = ⟨s', [], reply⟩) ∨
    ∃ result s₁ s₁', Stored b s result s₁ ∧ Stored b s' result s₁' := by
  rcases refused_or_submits h.other b.frame b.caller b.outage_id b.severity b.mttr with
    ⟨x, hi, hi'⟩ | ⟨cfg, result, hsubmits, hsubmits'⟩
  · exact .inl ⟨.error x, hi, hi'⟩
  · have hfresh : Admits s b.outage_id (severityConfigHash cfg) →
        ∃ result s₁ s₁', Stored b s result s₁ ∧ Stored b s' result s₁' := fun admits => by
      have admits' : Admits s' b.outage_id (severityConfigHash cfg) := by
        unfold Admits
        rw [← h.latest, ← h.count]
        exact admits
      obtain ⟨s₁, hs₁⟩ := hsubmits.stored admits
      obtain ⟨s₁', hs₁'⟩ := hsubmits'.stored admits'
      exact ⟨result, s₁, s₁', hs₁, hs₁'⟩
    cases hlatest : History.latestForOutage s b.outage_id with
    | none => exact .inr (hfresh fun prev hprev => by simp [hlatest] at hprev)
    | some prev =>
      have hlatest' := h.latest.symm.trans hlatest
      by_cases generation : prev.config_version_hash = severityConfigHash cfg
      · by_cases differs : Differs prev b.mttr cfg
        · exact .inl ⟨_, reply_of_fails (hsubmits.duplicates hlatest generation differs),
            reply_of_fails (hsubmits'.duplicates hlatest' generation differs)⟩
        · exact .inl ⟨_, reply_of_returns (hsubmits.replays hlatest generation differs),
            reply_of_returns (hsubmits'.replays hlatest' generation differs)⟩
      · by_cases full : maxRecalcsPerOutage ≤
            (History.entryIndicesForOutage s b.outage_id).length
        · exact .inl ⟨_, reply_of_fails (hsubmits.limited hlatest generation full),
            reply_of_fails (hsubmits'.limited hlatest' generation (h.count ▸ full))⟩
        · refine .inr (hfresh fun prev' hprev => ?_)
          obtain rfl : prev = prev' := by simpa [hlatest] using hprev
          exact ⟨generation, Nat.lt_of_not_le full⟩

/-! ## A batch of submissions -/

/-- The decision the submission stores, when there is one. -/
def Submission.stored (b : Submission) (s : Storage) : List SLAResult :=
  decisions (invoke exec b.tx s).events

/-- What the decision of a submission makes of the lane of a severity. -/
def Submission.record (s : Storage) (severity : Symbol) (lane : Lane) (b : Submission) : Lane :=
  (b.stored s).foldl (fun lane result =>
    if canonicalSeverityIndex severity = canonicalSeverityIndex b.severity then
      lane.record b.frame.timestamp (result.status ≠ .viol)
    else lane) lane

/-- The decisions that the submissions store, each of them alone. -/
def storedBy (s : Storage) (batch : List Submission) : List SLAResult :=
  batch.flatMap (·.stored s)

/-- The outages of the batch are all different, and none loses an entry to the decisions that the
batch stores. -/
structure Separate (s : Storage) (batch : List Submission) : Prop where
  distinct : (batch.map Submission.outage_id).Nodup
  short : (storedBy s batch).length ≤ retentionLimit s
  kept : ∀ entry ∈ (History.readAllEntries s).take
      ((History.readAllEntries s).length + (storedBy s batch).length - retentionLimit s),
    ∀ b ∈ batch, entry.outage_id ≠ b.outage_id

/-- Where the submissions `done` have got to. -/
structure Along (txs : List ContractTx) (done : List Submission) : Prop where
  exact : HistoryExact (after (txs ++ done.map Submission.tx))
  initializations : initializations (txs ++ done.map Submission.tx) = initializations txs
  other : Store.Agree {k | isBookKey k = false} (after txs)
    (after (txs ++ done.map Submission.tx))
  tail : History.tail (after (txs ++ done.map Submission.tx)) ≤
    History.tail (after txs) + done.length
  recorded : recorded (txs ++ done.map Submission.tx) =
    recorded txs ++ storedBy (after txs) done
  items : (History.shards (after (txs ++ done.map Submission.tx))).items =
    ((History.shards (after txs)).items ++ storedBy (after txs) done).rtake
      (retentionLimit (after txs))
  lanes : ∀ severity, telemetryLane (after (txs ++ done.map Submission.tx)) severity =
    done.foldl (Submission.record (after txs) severity) (telemetryLane (after txs) severity)

section Steps

variable {txs : List ContractTx} {done : List Submission} {b : Submission}

theorem initializations_submission (txs : List ContractTx) (b : Submission) :
    initializations (txs ++ [b.tx]) = initializations txs := by
  simp [initializations, steps, trace_append, trace, initializes, Submission.tx,
    Call.isInitialize]

theorem Stored.stored {s s' : Storage} {result : SLAResult} (h : Stored b s result s') :
    b.stored s = [result] := by
  rw [Submission.stored, h.outcome]
  exact decisions_recordedEvents ..

theorem Stored.outage {s s' : Storage} {result : SLAResult} (h : Stored b s result s') :
    result.outage_id = b.outage_id := by
  obtain ⟨cfg, hr⟩ := h.records
  obtain ⟨caller, -, hcall⟩ := hr.call
  simp only [Submission.tx, Call.calculateSla.injEq] at hcall
  exact hcall.2.1.symm

theorem SameFor.refl (outage_id : Symbol) (s : Storage) : SameFor outage_id s s :=
  ⟨fun _ _ => rfl, rfl, rfl⟩

/-- A submission stores nothing, and leaves the storage as it is, or stores one decision. -/
theorem Submission.stored_cases (b : Submission) (s : Storage) :
    ((∃ reply, invoke exec b.tx s = ⟨s, [], reply⟩) ∧ b.stored s = []) ∨
      ∃ result s', Stored b s result s' := by
  rcases (SameFor.refl b.outage_id s).alike with ⟨reply, hi, -⟩ | ⟨result, s', -, hstored, -⟩
  · refine .inl ⟨⟨reply, hi⟩, ?_⟩
    rw [Submission.stored, hi]
    rfl
  · exact .inr ⟨result, s', hstored⟩

theorem Submission.stored_length (b : Submission) (s : Storage) : (b.stored s).length ≤ 1 := by
  rcases b.stored_cases s with ⟨-, hnone⟩ | ⟨result, s', hstored⟩
  · simp [hnone]
  · simp [hstored.stored]

theorem Submission.stored_outage {b : Submission} {s : Storage} {result : SLAResult}
    (h : result ∈ b.stored s) : result.outage_id = b.outage_id := by
  rcases b.stored_cases s with ⟨-, hnone⟩ | ⟨result', s', hstored⟩
  · simp [hnone] at h
  · rw [hstored.stored, List.mem_singleton] at h
    exact h ▸ hstored.outage

@[simp] theorem storedBy_nil (s : Storage) : storedBy s [] = [] := rfl

@[simp] theorem storedBy_cons (s : Storage) (b : Submission) (batch : List Submission) :
    storedBy s (b :: batch) = b.stored s ++ storedBy s batch :=
  List.flatMap_cons

@[simp] theorem storedBy_append (s : Storage) (batch batch' : List Submission) :
    storedBy s (batch ++ batch') = storedBy s batch ++ storedBy s batch' :=
  List.flatMap_append

theorem storedBy_perm (s : Storage) {batch batch' : List Submission} (h : batch.Perm batch') :
    (storedBy s batch).Perm (storedBy s batch') :=
  List.Perm.flatMap_right (Submission.stored · s) h

theorem length_storedBy_le (s : Storage) (batch : List Submission) :
    (storedBy s batch).length ≤ batch.length := by
  induction batch with
  | nil => simp
  | cons b batch ih =>
    have hone := b.stored_length s
    rw [storedBy_cons, List.length_append, List.length_cons]
    omega

theorem length_storedBy_of_prefix (s : Storage) {done batch : List Submission}
    (h : done <+: batch) : (storedBy s done).length ≤ (storedBy s batch).length := by
  obtain ⟨later, rfl⟩ := h
  simp

theorem HistoryExact.length_items {s : Storage} (hi : HistoryExact s)
    (hb : History.tail s < 2 ^ 32) : (History.shards s).items.length = History.len s :=
  ShardedLog.length_items (hi.exact.sound hb)

theorem along_nil (hi : HistoryExact (after txs)) (hb : History.tail (after txs) < 2 ^ 32) :
    Along txs [] := by
  have hlen := hi.length_items hb
  refine ⟨by simpa using hi, by simp, ?_, by simp, by simp, ?_, by simp⟩
  · simp only [List.map_nil, List.append_nil]
    exact Store.Agree.refl _ _
  · simp only [List.map_nil, List.append_nil, storedBy_nil]
    exact (rtake_of_length_le (hlen ▸ hi.fits)).symm

/-- What is retained of an outage while a batch is submitted. -/
theorem Along.itemsOf (h : Along txs done) (hb : History.tail (after txs) < 2 ^ 32)
    {batch : List Submission} (hs : Separate (after txs) batch) (hpre : done <+: batch)
    {outage_id : Symbol} (hmem : ∃ b ∈ batch, b.outage_id = outage_id) :
    (History.shards (after (txs ++ done.map Submission.tx))).itemsOf SLAResult.outage_id
        outage_id =
      (History.shards (after txs)).itemsOf SLAResult.outage_id outage_id ++
        (storedBy (after txs) done).filter (·.outage_id = outage_id) := by
  obtain ⟨b, hb', rfl⟩ := hmem
  have hread := History.readAllEntries_eq_items hb
  have hnew := length_storedBy_of_prefix (after txs) hpre
  have hshort := hs.short
  have hkept := hs.kept
  rw [hread] at hkept
  rw [ShardedLog.itemsOf, h.items, rtake_append (by omega), List.filter_append, ShardedLog.itemsOf,
    filter_drop _ (fun entry hentry => by simpa using hkept entry hentry b hb') (by omega)]

/-- A submission for an outage that was not submitted yet finds what it would find alone. -/
theorem Along.sameFor (h : Along txs done) (hi : HistoryExact (after txs))
    (hb : History.tail (after txs) < 2 ^ 32) (hs : Separate (after txs) (done ++ [b])) :
    SameFor b.outage_id (after txs) (after (txs ++ done.map Submission.tx)) := by
  have hnew : (storedBy (after txs) done).filter (·.outage_id = b.outage_id) = [] := by
    refine List.filter_eq_nil_iff.mpr fun result hresult => ?_
    obtain ⟨other, hother, hstored⟩ := List.mem_flatMap.mp hresult
    have hdistinct := hs.distinct
    rw [List.map_append, List.nodup_append] at hdistinct
    rw [Submission.stored_outage hstored]
    simpa using hdistinct.2.2 other.outage_id (List.mem_map_of_mem hother) b.outage_id (by simp)
  have hitems := h.itemsOf hb hs (List.prefix_append _ _) ⟨b, by simp, rfl⟩
  rw [hnew, List.append_nil] at hitems
  refine ⟨h.other, ?_, ?_⟩
  · rw [latestForOutage_eq hi.exact, latestForOutage_eq h.exact.exact, hitems]
  · rw [length_entryIndicesForOutage hi.exact, length_entryIndicesForOutage h.exact.exact, hitems]

/-- A decision is appended to the entries that are retained, of which the oldest may go. -/
theorem Stored.items {s s' : Storage} {result : SLAResult} (h : Stored b s result s')
    (hi : HistoryExact s) (hroom : History.tail s + 1 < 2 ^ 32) :
    (History.shards s').items =
      if (History.shards s).items.length + 1 > retentionLimit s then
        ((History.shards s).items ++ [result]).tail
      else (History.shards s).items ++ [result] := by
  obtain ⟨cfg, hr⟩ := h.records
  have hsound := hi.exact.sound (show (History.shards s).tail < 2 ^ 32 by simp; omega)
  rw [hr.change.log, ShardedLog.items_record hsound hi.exact.ordered hroom,
    ShardedLog.length_items hsound]

theorem Along.step (h : Along txs done) (hi : HistoryExact (after txs))
    (hlimit : 1 ≤ retentionLimit (after txs))
    (hroom : History.tail (after txs) + done.length + 1 < 2 ^ 32)
    (hs : Separate (after txs) (done ++ [b])) : Along txs (done ++ [b]) := by
  have hruns : txs ++ (done ++ [b]).map Submission.tx =
      txs ++ done.map Submission.tx ++ [b.tx] := by simp
  have hinit := (initializations_submission (txs ++ done.map Submission.tx) b).trans
    h.initializations
  have hafter := after_concat (txs ++ done.map Submission.tx) b.tx
  have hrecorded := recorded_append_singleton (txs ++ done.map Submission.tx) b.tx
  have htail := h.tail
  rcases (h.sameFor hi (by omega) hs).alike with ⟨reply, hquiet, hi'⟩ | ⟨result, s₁, s₁', h₁, h₁'⟩
  · have hnone : b.stored (after txs) = [] := by
      rw [Submission.stored, hquiet]
      rfl
    rw [hi'] at hafter hrecorded
    refine ⟨?_, ?_, ?_, ?_, ?_, ?_, ?_⟩
    all_goals rw [hruns]
    · rw [hafter]
      exact h.exact
    · exact hinit
    · rw [hafter]
      exact h.other
    · rw [hafter, List.length_append]
      exact htail.trans (by omega)
    · rw [hrecorded, h.recorded]
      simp [hnone]
    · rw [hafter, h.items]
      simp [hnone]
    · intro severity
      rw [hafter, h.lanes]
      simp [Submission.record, hnone]
  · have hsame : retentionLimit (after (txs ++ done.map Submission.tx)) =
        retentionLimit (after txs) := retentionLimit_of_key (h.other .retentionLimit rfl).symm
    obtain ⟨cfg, hr⟩ := h₁'.records
    rw [h₁'.outcome] at hafter hrecorded
    rw [decisions_recordedEvents] at hrecorded
    refine ⟨?_, ?_, ?_, ?_, ?_, ?_, ?_⟩
    all_goals rw [hruns]
    · rw [hafter]
      exact hr.change.historyExact h.exact (by omega)
    · exact hinit
    · intro k hk
      have hkeys : History.isHistoryKey k = false ∧ isTelemetryKey k = false ∧ k ≠ .stats := by
        simpa [isBookKey, and_assoc] using hk
      rw [hafter]
      exact (h.other k hk).trans (hr.change.other k hkeys.1 hkeys.2.1 hkeys.2.2).symm
    · rw [hafter, List.length_append]
      exact hr.change.tail_le.trans (by simp; omega)
    · rw [hrecorded, h.recorded]
      simp [h₁.stored]
    · rw [hafter, h₁'.items h.exact (by omega), h.items, hsame, ← rtake_concat (by omega)]
      simp [h₁.stored]
    · intro severity
      rw [hafter, hr.lane h₁'.outcome severity, h.lanes]
      simp [Submission.record, h₁.stored]

end Steps

section Runs

variable {txs : List ContractTx} {batch : List Submission}

theorem Separate.front {s : Storage} (hs : Separate s batch) {done : List Submission}
    (hpre : done <+: batch) : Separate s done := by
  have hle := length_storedBy_of_prefix s hpre
  refine ⟨(hpre.sublist.map _).nodup hs.distinct, hle.trans hs.short, fun entry hentry b hb => ?_⟩
  exact hs.kept entry (List.take_subset_take_left _ (by omega) hentry) b (hpre.subset hb)

theorem Separate.perm {s : Storage} (hs : Separate s batch) {batch' : List Submission}
    (hperm : batch.Perm batch') : Separate s batch' := by
  have hlen := (storedBy_perm s hperm).length_eq
  refine ⟨(hperm.map _).nodup_iff.mp hs.distinct, hlen ▸ hs.short, fun entry hentry b hb => ?_⟩
  rw [← hlen] at hentry
  exact hs.kept entry hentry b (hperm.mem_iff.mpr hb)

theorem along_batch (hi : HistoryExact (after txs)) (hlimit : 1 ≤ retentionLimit (after txs))
    (hroom : History.tail (after txs) + batch.length < 2 ^ 32)
    (hs : Separate (after txs) batch) {done : List Submission} (hpre : done <+: batch) :
    Along txs done := by
  induction done using List.reverseRecOn with
  | nil => exact along_nil hi (by omega)
  | append_singleton done b ih =>
    have hle := hpre.length_le
    rw [List.length_append, List.length_singleton] at hle
    exact (ih ((List.prefix_append done [b]).trans hpre)).step hi hlimit (by omega) (hs.front hpre)

/-- Every submission of a batch is answered as it would be alone. -/
theorem reply_in_batch (hi : HistoryExact (after txs)) (hlimit : 1 ≤ retentionLimit (after txs))
    (hroom : History.tail (after txs) + batch.length < 2 ^ 32)
    (hs : Separate (after txs) batch) {pre post : List Submission} {b : Submission}
    (h : batch = pre ++ b :: post) :
    (invoke exec b.tx (after (txs ++ pre.map Submission.tx))).reply =
      (invoke exec b.tx (after txs)).reply := by
  have hpre : pre ++ [b] <+: batch := ⟨post, by simp [h]⟩
  have halong := along_batch hi hlimit hroom hs ((List.prefix_append pre [b]).trans hpre)
  have hlt := hpre.length_le
  rcases (halong.sameFor hi (by omega) (hs.front hpre)).alike with
    ⟨reply, h₁, h₁'⟩ | ⟨result, s₁, s₁', h₁, h₁'⟩
  · rw [h₁, h₁']
  · rw [h₁.outcome, h₁'.outcome]

end Runs

/-! ## Two orders -/

/-- The storages hold the same, but for the slots that the entries are kept in. -/
structure SameBooks (s s' : Storage) : Prop where
  other : Store.Agree {k | isBookKey k = false} s s'
  stats : s .stats = s' .stats
  historyLen : s .historyLen = s' .historyLen
  lanes : ∀ severity, telemetryLane s severity = telemetryLane s' severity
  telemetry : getSeverityTelemetry s = getSeverityTelemetry s'
  history : (History.readAllEntries s).Perm (History.readAllEntries s')
  byOutage : ∀ outage_id, getHistoryByOutage outage_id s = getHistoryByOutage outage_id s'
  latest : ∀ outage_id, getLatestByOutage outage_id s = getLatestByOutage outage_id s'

/-- Two calculations of one lane at one time may be recorded in either order, as long as a lane
that was stamped then is not stale. -/
theorem Lane.record_comm {now : Nat} (hnow : isStale now (laneTimestamp now) = false)
    (lane : Lane) (met met' : Bool) :
    (lane.record now met).record now met' = (lane.record now met').record now met := by
  cases hold : isStale now lane.lastViolation <;> cases met <;> cases met' <;>
    simp [Lane.record, hnow, hold]

theorem isStale_laneTimestamp {now : Nat} (h : now < unsignedMax 32 + weekSeconds) :
    isStale now (laneTimestamp now) = false := by
  have hrecent : now - laneTimestamp now < weekSeconds := by
    have hweek : 0 < weekSeconds := by decide
    unfold laneTimestamp
    split <;> omega
  simp [isStale, hrecent]

theorem Submission.record_comm {now : Nat} (hnow : now < unsignedMax 32 + weekSeconds)
    (s : Storage) (severity : Symbol) {b c : Submission} (hb : b.frame.timestamp = now)
    (hc : c.frame.timestamp = now) (lane : Lane) :
    Submission.record s severity (Submission.record s severity lane b) c =
      Submission.record s severity (Submission.record s severity lane c) b := by
  have hlane := fun met met' => Lane.record_comm (isStale_laneTimestamp hnow) lane met met'
  unfold Submission.record
  rw [hb, hc]
  rcases b.stored_cases s with ⟨-, hnone⟩ | ⟨result, s', hstored⟩
  · simp [hnone]
  · rcases c.stored_cases s with ⟨-, hnone⟩ | ⟨result', s'', hstored'⟩
    · simp [hnone]
    · simp only [hstored.stored, hstored'.stored, List.foldl_cons, List.foldl_nil]
      split
      · split
        · exact hlane ..
        · rfl
      · rfl

/-- A telemetry word is its four lanes. -/
theorem word_ext {w w' : BitVec 128} (h : ∀ i < 4, countLane w i = countLane w' i) : w = w' := by
  refine BitVec.eq_of_getLsbD_eq fun b hb => ?_
  have hlane := congrArg (Nat.testBit · (b % 32)) (h (b / 32) (by omega))
  have hsplit : b / 32 * 32 + b % 32 = b := by omega
  have hbit : b % 32 < 32 := Nat.mod_lt _ (by omega)
  simpa [testBit_countLane, hsplit, hbit] using hlane

/-- The lanes of the severities determine what the telemetry view reads. -/
theorem getSeverityTelemetry_of_lanes {s s' : Storage}
    (hother : Store.Agree {k | isBookKey k = false} s s')
    (hlanes : ∀ severity, telemetryLane s severity = telemetryLane s' severity) :
    getSeverityTelemetry s = getSeverityTelemetry s' := by
  have hcanonical : ∀ i < 4, ∃ severity, canonicalSeverityIndex severity = some i := by
    intro i hi
    obtain rfl | rfl | rfl | rfl : i = 0 ∨ i = 1 ∨ i = 2 ∨ i = 3 := by omega
    · exact ⟨critical, rfl⟩
    · exact ⟨high, rfl⟩
    · exact ⟨medium, rfl⟩
    · exact ⟨low, rfl⟩
  have hwords : countsOf (s .severityCalcCounts) = countsOf (s' .severityCalcCounts) ∧
      countsOf (s .severityViolCounts) = countsOf (s' .severityViolCounts) := by
    constructor <;> refine word_ext fun i hi => ?_ <;> obtain ⟨severity, hs⟩ := hcanonical i hi <;>
      have hlane := hlanes severity <;>
      rw [telemetryLane_of_canonical hs, telemetryLane_of_canonical hs] at hlane
    · exact congrArg Lane.calculations hlane
    · exact congrArg Lane.violations hlane
  have hcustom : countsOf (s .customTelemetry) = countsOf (s' .customTelemetry) := by
    have hlane := hlanes customTelemetrySeverity
    rw [telemetryLane_of_custom (by decide), telemetryLane_of_custom (by decide)] at hlane
    simp only [Lane.mk.injEq] at hlane
    obtain ⟨h₀, h₁, h₂, h₃⟩ := hlane
    refine word_ext fun i hi => ?_
    obtain rfl | rfl | rfl | rfl : i = 0 ∨ i = 1 ∨ i = 2 ∨ i = 3 := by omega
    all_goals assumption
  have hversion : checkVersion s = checkVersion s' := by
    simp only [checkVersion, hother .storageVersion rfl]
  have hconfigs := customConfigs_of_key (hother .customConfig rfl)
  simp only [countsOf] at hwords hcustom
  simp only [getSeverityTelemetry, hversion, hwords.1, hwords.2, hcustom, hconfigs]

theorem tally_perm {results results' : List SLAResult} (h : results.Perm results') :
    tally results = tally results' := by
  simp only [tally, h.length_eq, h.countP_eq, ((h.filter _).map _).sum_eq]

section Orders

variable {txs : List ContractTx} {batch batch' : List Submission}

/-- The decisions for one outage come from the submissions for it. -/
theorem filter_storedBy (s : Storage) (l : List Submission) (outage_id : Symbol) :
    (storedBy s l).filter (·.outage_id = outage_id) =
      storedBy s (l.filter (·.outage_id = outage_id)) := by
  induction l with
  | nil => rfl
  | cons b l ih =>
    rw [storedBy_cons, List.filter_append, ih]
    by_cases hb : b.outage_id = outage_id
    · have hall : (b.stored s).filter (·.outage_id = outage_id) = b.stored s :=
        List.filter_eq_self.mpr fun result hresult => by
          simpa [hb] using Submission.stored_outage hresult
      rw [List.filter_cons_of_pos (by simpa using hb), storedBy_cons, hall]
    · have hnone : (b.stored s).filter (·.outage_id = outage_id) = [] :=
        List.filter_eq_nil_iff.mpr fun result hresult => by
          simpa [Submission.stored_outage hresult] using hb
      rw [List.filter_cons_of_neg (by simpa using hb), hnone, List.nil_append]

theorem length_filter_outage (hdistinct : (batch.map Submission.outage_id).Nodup)
    (outage_id : Symbol) : (batch.filter (·.outage_id = outage_id)).length ≤ 1 := by
  have hcount := List.nodup_iff_count_le_one.mp hdistinct outage_id
  rw [List.count, List.countP_map, List.countP_eq_length_filter] at hcount
  simpa [Function.comp_def, beq_eq_decide] using hcount

/-- The decisions for one outage are in the same order, because there is at most one. -/
theorem filter_stored (s : Storage) (hperm : batch.Perm batch')
    (hdistinct : (batch.map Submission.outage_id).Nodup) (outage_id : Symbol) :
    (storedBy s batch).filter (·.outage_id = outage_id) =
      (storedBy s batch').filter (·.outage_id = outage_id) := by
  rw [filter_storedBy, filter_storedBy,
    eq_of_perm_of_length_le_one (hperm.filter _) (length_filter_outage hdistinct outage_id)]

theorem sameBooks_of_perm (h : Along txs batch) (h' : Along txs batch')
    (hperm : batch.Perm batch') (hone : initializations txs = 1)
    (hfew : (recorded txs).length + batch.length < 2 ^ 32)
    (hroom : History.tail (after txs) + batch.length < 2 ^ 32)
    (hs : Separate (after txs) batch) {now : Nat} (hnow : now < unsignedMax 32 + weekSeconds)
    (htime : ∀ b ∈ batch, b.frame.timestamp = now) :
    SameBooks (after (txs ++ batch.map Submission.tx))
      (after (txs ++ batch'.map Submission.tx)) := by
  have hlen := hperm.length_eq
  have htail := h.tail
  have htail' := h'.tail
  have hstored := storedBy_perm (after txs) hperm
  have hcount := length_storedBy_le (after txs) batch
  have hshort := hs.short
  have hitems := h.items
  have hitems' := h'.items
  rw [rtake_append (by omega)] at hitems
  rw [rtake_append (by rw [← hstored.length_eq]; omega), ← hstored.length_eq] at hitems'
  have hother : Store.Agree {k | isBookKey k = false} (after (txs ++ batch.map Submission.tx))
      (after (txs ++ batch'.map Submission.tx)) := fun k hk =>
    (h.other k hk).symm.trans (h'.other k hk)
  have hlanes : ∀ severity, telemetryLane (after (txs ++ batch.map Submission.tx)) severity =
      telemetryLane (after (txs ++ batch'.map Submission.tx)) severity := by
    intro severity
    rw [h.lanes, h'.lanes]
    exact hperm.foldl_eq' (fun b hb c hc lane =>
      Submission.record_comm hnow _ severity (htime b hb) (htime c hc) lane) _
  have hversion : checkVersion (after (txs ++ batch.map Submission.tx)) =
      checkVersion (after (txs ++ batch'.map Submission.tx)) := by
    simp only [checkVersion, hother .storageVersion rfl]
  have hitemsOf : ∀ outage_id,
      (History.shards (after (txs ++ batch.map Submission.tx))).itemsOf SLAResult.outage_id
          outage_id =
        (History.shards (after (txs ++ batch'.map Submission.tx))).itemsOf SLAResult.outage_id
          outage_id := fun outage_id => by
    rw [ShardedLog.itemsOf, ShardedLog.itemsOf, hitems, hitems', List.filter_append,
      List.filter_append, filter_stored _ hperm hs.distinct]
  refine ⟨hother, ?_, ?_, hlanes, getSeverityTelemetry_of_lanes hother hlanes, ?_, ?_, ?_⟩
  · have hfew' : (recorded txs ++ storedBy (after txs) batch).length < 2 ^ 64 := by
      rw [List.length_append]
      omega
    have hstats := (statsExact_after (h.initializations.trans hone)
      (h.recorded.symm ▸ hfew')).stats
    have hsame : (recorded txs ++ storedBy (after txs) batch).Perm
        (recorded txs ++ storedBy (after txs) batch') := hstored.append_left _
    have hstats' := (statsExact_after (h'.initializations.trans hone)
      (h'.recorded.symm ▸ hsame.length_eq ▸ hfew')).stats
    have htally : tally (recorded (txs ++ batch.map Submission.tx)) =
        tally (recorded (txs ++ batch'.map Submission.tx)) := by
      rw [h.recorded, h'.recorded]
      exact tally_perm hsame
    exact hstats.trans (htally ▸ hstats').symm
  · rw [h.exact.historyLen, h'.exact.historyLen, ← h.exact.length_items (by omega),
      ← h'.exact.length_items (by omega), hitems, hitems', List.length_append, List.length_append,
      hstored.length_eq]
  · rw [History.readAllEntries_eq_items (by omega), History.readAllEntries_eq_items (by omega),
      hitems, hitems']
    exact hstored.append_left _
  · intro outage_id
    simp only [getHistoryByOutage, hversion, entriesForOutage_eq h.exact.exact,
      entriesForOutage_eq h'.exact.exact, hitemsOf]
  · intro outage_id
    simp only [getLatestByOutage, hversion, latestForOutage_eq h.exact.exact,
      latestForOutage_eq h'.exact.exact, hitemsOf]

end Orders

/-- The submissions of a ledger commute, over every run in which `initialize` succeeds once. Put in
any order, submissions for different outages, none of which loses an entry to the eviction, are
each answered as on the state before all of them, and leave the same statistics, telemetry and
settings, the same entries, and the same entries in the same order for every outage. -/
theorem submissions_commute (txs : List ContractTx) (hone : initializations txs = 1)
    {batch batch' : List Submission} (hperm : batch.Perm batch')
    (hfew : (recorded txs).length + batch.length < 2 ^ 32)
    (hs : Separate (after txs) batch) {now : Nat} (hnow : now < unsignedMax 32 + weekSeconds)
    (htime : ∀ b ∈ batch, b.frame.timestamp = now) :
    (∀ pre b post, batch' = pre ++ b :: post →
      (invoke exec b.tx (after (txs ++ pre.map Submission.tx))).reply =
        (invoke exec b.tx (after txs)).reply) ∧
    SameBooks (after (txs ++ batch.map Submission.tx))
      (after (txs ++ batch'.map Submission.tx)) := by
  obtain ⟨hi, htail⟩ := historyExact_after hone (by omega)
  have hlen := hperm.length_eq
  have hhealthy : Healthy (after txs) :=
    healthy_of_stored (configSound_after (show 0 < initializations txs by omega)).version
  have hlimit := hhealthy.limit.1
  have hs' := hs.perm hperm
  have halong := along_batch hi hlimit (by omega) hs List.prefix_rfl
  have halong' := along_batch hi hlimit (by omega) hs' List.prefix_rfl
  exact ⟨fun pre b post h => reply_in_batch hi hlimit (by omega) hs' h,
    sameBooks_of_perm halong halong' hperm hone hfew (by omega) hs hnow htime⟩

/-- A contract that retains two entries, and has decided one outage. -/
def roomForTwo : List ContractTx :=
  launch ++ [⟨.setRetentionLimit ⟨1⟩ 2, ⟨[⟨1⟩], 2, 2⟩⟩, submitTen 3 critical]

/-- That outage submitted again, and another one for the first time, in either order. -/
theorem submissions_commute_roomForTwo :
    let replayed : Submission := ⟨⟨[⟨2⟩], 5, 5⟩, ⟨2⟩, sampleOutage, critical, 10⟩
    let fresh : Submission := ⟨⟨[⟨2⟩], 5, 5⟩, ⟨2⟩, critical, low, 400⟩
    SameBooks (after (roomForTwo ++ [replayed.tx, fresh.tx]))
      (after (roomForTwo ++ [fresh.tx, replayed.tx])) := by
  intro replayed fresh
  have hseparate : Separate (after roomForTwo) [replayed, fresh] :=
    ⟨by decide, by decide, by decide⟩
  exact (submissions_commute roomForTwo (by decide) (List.Perm.swap fresh replayed [])
    (by decide) hseparate (show 5 < _ by decide) (by decide)).2

end ApexChainx
