import Mathlib.Data.List.Chain
import ApexChainx.Proofs.EventLog
import ApexChainx.Proofs.Generations

/-!
# The retained history as a ledger

Who may change what, and what a run does to the retained history. Every step changes the storage
only under the authority of the role it needs, and only `calculate_sla` adds to the history; the
other calls drop a prefix of it, the age prune included, because the entries are in the order of
their ledger times (`append_only_ledger`). What every retained entry keeps while the entries
around it come and go is `Disciplined` (`disciplined_after`).
-/

namespace ApexChainx

open Host Misc

/-! ## Entries in the order of their times -/

theorem items_empty : (History.shards Store.empty).items = [] := by
  simp [ShardedLog.items, ShardedLog.window, ShardedLog.len, History.head, History.tail]

/-- The entries a run retains are in the order of their ledger times. -/
theorem dated_after {txs : List ContractTx} (htimes : NonDecreasing txs) {now : Nat}
    (hnow : ∀ tx ∈ txs, tx.frame.timestamp ≤ now) : Dated now (after txs) := by
  refine after_induction
    (P := fun txs s => NonDecreasing txs → ∀ now, (∀ tx ∈ txs, tx.frame.timestamp ≤ now) →
      Dated now s) ?_ ?_ ?_ txs htimes now hnow
  · intro _ now _
    exact ⟨by simp [items_empty], by simp [items_empty]⟩
  · intro txs tx r s' evs ih he hi hsorted now hle
    obtain ⟨hpast, -, hlast⟩ := List.pairwise_append.mp hsorted
    have hdated := ih hpast tx.frame.timestamp fun tx' htx' => hlast tx' htx' tx (by simp)
    exact (he.dated (sound_after txs) hdated).mono (hle tx (by simp))
  · intro txs tx x ih hi hsorted now hle
    exact ih (List.pairwise_append.mp hsorted).1 now
      fun tx' htx' => hle tx' (List.mem_append_left _ htx')

/-- The state before a call of a run is dated by the call. -/
theorem dated_before {txs : List ContractTx} {tx : ContractTx}
    (htimes : NonDecreasing (txs ++ [tx])) : Dated tx.frame.timestamp (after txs) := by
  obtain ⟨hpast, -, hlast⟩ := List.pairwise_append.mp htimes
  exact dated_after hpast fun tx' htx' => hlast tx' htx' tx (by simp)

/-- The filter of a call drops a front of entries that are in the order of their times. -/
theorem retains_suffix (c : Call) (f : Frame Address) {entries : List SLAResult}
    (h : entries.Pairwise fun a b => a.recorded_at ≤ b.recorded_at) :
    entries.filter (c.retains f) <:+ entries := by
  have all : entries.filter (fun _ => true) <:+ entries := by simp
  cases c
  case pruneHistoryByAge caller min_age =>
    have hdrop := filter_ge_eq_drop SLAResult.recorded_at (f.timestamp - min_age) h
    have hretains : entries.filter (Call.retains f (.pruneHistoryByAge caller min_age)) =
        entries.filter (f.timestamp - min_age ≤ ·.recorded_at) := rfl
    rw [hretains, hdrop]
    exact List.drop_suffix _ _
  all_goals exact all

section Steps

variable {f : Frame Address} {s s' : Storage} {c : Call} {r : Reply} {evs : List Event}

/-- A call retains an end of what was retained and of the decision it records. -/
theorem Effect.appends (he : Effect f s c r s' evs)
    (hs : (History.shards s).Sound SLAResult.outage_id 32) (hd : Dated f.timestamp s) :
    (History.shards s').items <:+ (History.shards s).items ++ decisions evs := by
  have htimes := he.decisions_dated
  refine (he.items_suffix hs).trans (retains_suffix c f ?_)
  refine List.pairwise_append.mpr ⟨hd.sorted, ?_, ?_⟩
  · apply List.pairwise_of_forall_mem_list
    intro a ha b hb
    rw [htimes a ha, htimes b hb]
  · intro a ha b hb
    rw [htimes b hb]
    exact hd.past a ha

end Steps

/-! ## Role separation -/

/-- Whose authorization a call other than `initialize` needs. -/
def responsible (s : Storage) : Call → Option Address
  | .calculateSla _ _ _ _ => s .operator
  | .acceptAdmin _ => s (.pending .admin)
  | .acceptOperator _ => s (.pending .operator)
  | _ => s .admin

/-- A step changes the storage only under the authority of the role it needs, and only in the
part of the storage that is the business of its call. -/
structure RoleSeparated (st : ContractStep) : Prop where
  authorized : st.post exec ≠ st.pre →
    ∃ a, responsible st.pre st.tx.call = some a ∧ a ∈ st.tx.frame.auths
  calculation : st.tx.call.isCalculation = true →
    ∀ k, History.isHistoryKey k = false → isTelemetryKey k = false → k ≠ .stats →
      st.post exec k = st.pre k
  acceptance : ∀ role caller, st.tx.call = role.accept caller →
    ∀ k, k ≠ role.holder → k ≠ .pending role → k ≠ .pendingTs role →
      st.post exec k = st.pre k
  counters : st.tx.call.isCalculation = false →
    st.post exec .stats = st.pre .stats ∧
      ∀ k, isTelemetryKey k = true → st.post exec k = st.pre k
  history : st.tx.call.isCalculation = false →
    ∃ dropped, History.readAllEntries (st.post exec) =
      (History.readAllEntries st.pre).drop dropped

section Steps

variable {f : Frame Address} {s s' : Storage} {c : Call} {r : Reply} {evs : List Event}

/-- A call that succeeds and changes something acted for the operator, for the candidate of a
proposal or for the admin. -/
theorem Effect.authority (he : Effect f s c r s' evs) (hc : c.isInitialize = false) :
    s' = s ∨ (c.isCalculation = true ∧ ∃ caller, ByOperator f s caller) ∨
      (∃ role caller, c = role.accept caller ∧ Accepts f s role caller) ∨
      (c.isCalculation = false ∧ responsible s c = s .admin ∧ ∃ caller, ByAdmin f s caller) := by
  have by_admin : ∀ {caller}, ByAdmin f s caller → ∃ caller, ByAdmin f s caller :=
    fun h => ⟨_, h⟩
  cases he
  case initialized => simp [Call.isInitialize] at hc
  case migrateCurrent => exact .inl rfl
  case adminAccepted accepts => exact .inr (.inr (.inl ⟨.admin, _, rfl, accepts⟩))
  case operatorAccepted accepts => exact .inr (.inr (.inl ⟨.operator, _, rfl, accepts⟩))
  case replayed => exact .inl rfl
  case recorded by_operator _ _ _ _ _ => exact .inr (.inl ⟨rfl, _, by_operator⟩)
  all_goals exact .inr (.inr (.inr ⟨rfl, rfl, by_admin (by assumption)⟩))

/-- A call that changes the storage was authorized by the role it needs. -/
theorem Effect.authorized (he : Effect f s c r s' evs) (hc : c.isInitialize = false)
    (hchanged : s' ≠ s) : ∃ a, responsible s c = some a ∧ a ∈ f.auths := by
  rcases he.authority hc with hsame | ⟨hcalc, caller, h⟩ | ⟨role, caller, rfl, h⟩ |
    ⟨-, hadmin, caller, h⟩
  · exact absurd hsame hchanged
  · refine ⟨caller, ?_, h.signed⟩
    cases c <;> simp only [Call.isCalculation, Bool.false_eq_true] at hcalc
    exact h.operator
  · refine ⟨caller, ?_, h.signed⟩
    cases role <;> exact h.pending
  · exact ⟨caller, hadmin.trans h.admin, h.signed⟩

/-- A call other than `calculate_sla` records no decision. -/
theorem Effect.decisions_of_not_calculation (he : Effect f s c r s' evs)
    (hcalc : c.isCalculation = false) : decisions evs = [] := by
  apply he.decisions_eq_nil
  rintro caller outage_id severity mttr rfl
  cases hcalc

/-- An accepted proposal touches its role and its pending slot. -/
theorem Role.touches_accept (role : Role) (caller : Address) {k : StorageKey}
    (hholder : k ≠ role.holder) (hpending : k ≠ .pending role) (hts : k ≠ .pendingTs role) :
    (role.accept caller).touches k = false := by
  cases role <;> simp_all [Role.accept, Role.holder, Call.touches]

end Steps

/-- Every call of a run other than `initialize` keeps to its role. -/
theorem roleSeparated_after {txs : List ContractTx} {tx : ContractTx}
    (htimes : NonDecreasing (txs ++ [tx])) (hinit : tx.call.isInitialize = false) :
    RoleSeparated ⟨after txs, tx⟩ := by
  rcases invoke_effect (current_after txs) tx with ⟨r, s', evs, he, hi⟩ | ⟨x, hi⟩
  · have hpost := post_of_invoke hi
    refine ⟨?_, ?_, ?_, ?_, ?_⟩ <;> rw [hpost]
    · exact he.authorized hinit
    · intro hcalc k hhistory htelemetry hstats
      apply he.frame
      have hcall : tx.call.touches k = false := by
        cases hc : tx.call <;> rw [hc] at hcalc <;> simp [Call.isCalculation] at hcalc
        simp [Call.touches, hhistory, htelemetry, hstats]
      exact hcall
    · intro role caller hcall k hholder hpending hts
      apply he.frame
      rw [show tx.call = _ from hcall]
      exact role.touches_accept caller hholder hpending hts
    · intro hcalc
      exact ⟨he.frame (Call.touches_counters hcalc hinit (.inl rfl)),
        fun k hk => he.frame (Call.touches_counters hcalc hinit (.inr hk))⟩
    · intro hcalc
      have hsuffix := he.appends (sound_after txs) (dated_before htimes)
      rw [he.decisions_of_not_calculation hcalc, List.append_nil,
        List.suffix_iff_eq_drop] at hsuffix
      refine ⟨(History.shards (after txs)).items.length - (History.shards s').items.length, ?_⟩
      rw [History.readAllEntries_eq_items (sound_after txs).bounded,
        History.readAllEntries_eq_items (he.sound (sound_after txs)).bounded]
      exact hsuffix
  · have hpost := post_of_invoke hi
    refine ⟨?_, ?_, ?_, ?_, ?_⟩ <;> rw [hpost]
    · exact fun h => absurd rfl h
    · exact fun _ _ _ _ _ => rfl
    · exact fun _ _ _ _ _ _ _ => rfl
    · exact fun _ => ⟨rfl, fun _ _ => rfl⟩
    · exact fun _ => ⟨0, rfl⟩

/-! ## The ledger between two points of a run -/

/-- The decision a call returned and stored. A submission that repeats a stored decision returns
it and commits nothing. -/
def storedResult (st : ContractStep) : Option SLAResult :=
  match (st.outcome exec).reply with
  | .ok (.decision result) => if (st.events exec).isEmpty then none else some result
  | _ => none

theorem storedResult_of_refused {s : Storage} {tx : ContractTx} {x : Fault SLAError}
    (hi : invoke exec tx s = ⟨s, [], .error x⟩) : storedResult ⟨s, tx⟩ = none := by
  simp only [storedResult, Step.outcome, hi]

/-- What a call returned and stored is the decision its events record. -/
theorem storedResult_of_effect {s s' : Storage} {tx : ContractTx} {r : Reply} {evs : List Event}
    (he : Effect tx.frame s tx.call r s' evs) (hi : invoke exec tx s = ⟨s', evs, .ok r⟩) :
    (storedResult ⟨s, tx⟩).toList = decisions evs := by
  simp only [storedResult, Step.events, Step.outcome, hi]
  cases hcalc : tx.call.isCalculation with
  | false =>
    have hnone := he.decisions_of_not_calculation hcalc
    have hunit : r = .unit := by
      generalize tx.call = c at he hcalc
      cases he <;> first | rfl | cases hcalc
    rw [hunit, hnone]
    rfl
  | true =>
    obtain ⟨call, f⟩ := tx
    cases he <;> simp only [Call.isCalculation, Bool.false_eq_true] at hcalc
    case replayed => rfl
    case recorded => simp [recordedEvents, decisions_statsAfter]; rfl

/-- The decisions a run returned and stored are those its events record. -/
theorem Current.storedResults {s : Storage} (hc : Current s) (txs : List ContractTx) :
    (trace exec s txs).filterMap storedResult = decisions (committed exec s txs) := by
  have hlast : ∀ st : ContractStep, [st].filterMap storedResult = (storedResult st).toList := by
    intro st
    cases h : storedResult st <;> simp [h]
  induction txs generalizing s with
  | nil => rfl
  | cons tx txs ih =>
    rw [trace, ← List.singleton_append, List.filterMap_append, hlast, committed_cons,
      decisions_append]
    rcases invoke_effect hc tx with ⟨r, s', evs, he, hi⟩ | ⟨x, hi⟩
    · rw [storedResult_of_effect he hi, hi, ih (he.current hc)]
    · rw [storedResult_of_refused hi, hi, ih hc]
      rfl

/-- What is retained at the end of a run from a regular storage, whose entries are in the order of
their times, is an end of what was retained at its start followed by what was stored on the way. -/
theorem Regular.items_suffix {s : Storage} (hs : Regular s) {now : Nat} (hd : Dated now s)
    {txs : List ContractTx} (htimes : NonDecreasing txs)
    (hnow : ∀ tx ∈ txs, now ≤ tx.frame.timestamp) :
    (History.shards (final exec s txs)).items <:+
      (History.shards s).items ++ decisions (committed exec s txs) := by
  induction txs generalizing s now with
  | nil => simp [committed, trace]
  | cons tx txs ih =>
    obtain ⟨hfirst, hrest⟩ := List.pairwise_cons.mp htimes
    have hdated := hd.mono (hnow tx (List.mem_cons_self ..))
    have hnext := hs.call tx
    rw [final_cons, committed_cons, decisions_append]
    rcases invoke_effect hs.current tx with ⟨r, s', evs, he, hi⟩ | ⟨x, hi⟩
    · rw [hi] at hnext ⊢
      obtain ⟨front, hfront⟩ := he.appends hs.sound hdated
      refine (ih hnext (he.dated hs.sound hdated) hrest hfirst).trans ⟨front, ?_⟩
      rw [← List.append_assoc, hfront, List.append_assoc]
    · rw [hi] at hnext ⊢
      exact ih hnext hdated hrest hfirst

theorem items_suffix_after {txs later : List ContractTx} (htimes : NonDecreasing (txs ++ later)) :
    (History.shards (after (txs ++ later))).items <:+
      (History.shards (after txs)).items ++ decisions (committed exec (after txs) later) := by
  obtain ⟨hpast, hlater, hbetween⟩ := List.pairwise_append.mp htimes
  rw [after, final_append]
  cases later with
  | nil => simp [committed, trace, after]
  | cons tx later =>
    have hdated := dated_after hpast fun tx' htx' => hbetween tx' htx' tx (List.mem_cons_self ..)
    refine (regular_empty.along txs).items_suffix hdated hlater ?_
    intro tx' htx'
    rcases List.mem_cons.mp htx' with rfl | hmem
    · exact Nat.le_refl _
    · exact (List.pairwise_cons.mp hlater).1 tx' hmem

/-- Role separation, and the retained history as an append-only ledger. -/
structure AppendOnly (txs : List ContractTx) : Prop where
  separated : ∀ st ∈ steps txs, st.tx.call.isInitialize = false → RoleSeparated st
  ledger : ∀ before later, before ++ later <+: txs →
    History.readAllEntries (after (before ++ later)) <:+
      History.readAllEntries (after before) ++
        (trace exec (after before) later).filterMap storedResult

/-- Over every run whose ledger times do not decrease, every call other than `initialize` keeps
to its role, and between any two points the retained history loses a front and gains, at its end
and in order, the decisions that were stored. -/
theorem append_only_ledger (txs : List ContractTx) (htimes : NonDecreasing txs) :
    AppendOnly txs where
  separated := by
    intro st hst hinit
    obtain ⟨before, tx, hpre, rfl⟩ := mem_trace.mp hst
    exact roleSeparated_after (htimes.sublist hpre.sublist) hinit
  ledger := by
    intro before later hpre
    rw [(current_after before).storedResults,
      History.readAllEntries_eq_items (sound_after _).bounded,
      History.readAllEntries_eq_items (sound_after _).bounded]
    exact items_suffix_after (htimes.sublist hpre.sublist)

theorem append_only_ledger_oneDecision : AppendOnly oneDecision :=
  append_only_ledger oneDecision (by simp [NonDecreasing, oneDecision, launch, submitTen])

/-! ## What the retained entries keep -/

/-- The sign, the payment type and the rating of a decision agree with its status. -/
def SignDisciplined (result : SLAResult) : Prop :=
  (result.status = .met ∧ result.payment_type = .rew ∧ 0 < result.amount) ∨
    (result.status = .viol ∧ result.payment_type = .pen ∧ result.rating = .poor ∧
      result.amount < 0)

/-- The entry is what `compute_result` gives for its own inputs, under a configuration within the
general bounds that has the hash the entry carries. -/
def Genuine (entry : SLAResult) : Prop :=
  ∃ cfg, InBounds cfg ∧ severityConfigHash cfg = entry.config_version_hash ∧
    computeResult entry.outage_id entry.mttr_minutes cfg entry.config_version_hash
      entry.recorded_at = .ok entry

/-- At most sixteen entries an outage, each of another generation than the one before it, in the
order of their times and each what its own inputs compute. -/
structure Disciplined (entries : List SLAResult) : Prop where
  capped : ∀ o, (entries.filter (·.outage_id = o)).length ≤ 16
  generations : ∀ o, (entries.filter (·.outage_id = o)).IsChain
    (·.config_version_hash ≠ ·.config_version_hash)
  ordered : entries.Pairwise (·.recorded_at ≤ ·.recorded_at)
  genuine : ∀ entry ∈ entries, SignDisciplined entry ∧ Genuine entry

theorem computeResult_signDisciplined {outage_id : Symbol} {mttr hash now : Nat}
    {cfg : SLAConfig} {result : SLAResult}
    (h : computeResult outage_id mttr cfg hash now = .ok result) : SignDisciplined result := by
  unfold computeResult at h
  split at h
  · simp only [computePenalty, bind_eq_ok, okOr_eq_ok, refuseIf_eq_ok, pure_eq_ok] at h
    obtain ⟨_, -, amount, -, -, negative, rfl⟩ := h
    exact .inr ⟨rfl, rfl, rfl, Int.not_le.mp negative⟩
  · simp only [computeReward, bind_eq_ok, okOr_eq_ok, refuseIf_eq_ok, pure_eq_ok] at h
    obtain ⟨_, -, -, positive, rfl⟩ := h
    exact .inl ⟨rfl, rfl, Int.not_le.mp positive⟩

/-- A decision that a call stores is what its inputs compute. -/
theorem Records.genuine {f : Frame Address} {s s' : Storage} {c : Call} {r : Reply}
    {evs : List Event} {severity : Symbol} {cfg : SLAConfig} {result : SLAResult}
    (hr : Records f s c r s' evs severity cfg result) (hcfg : InBounds cfg) : Genuine result := by
  obtain ⟨-, -, -, hhash, htime⟩ := computeResult_inputs hr.computed
  refine ⟨cfg, hcfg, hhash.symm, ?_⟩
  rw [hhash, htime]
  exact hr.computed

theorem Disciplined.suffix {entries rest : List SLAResult} (h : Disciplined entries)
    (hrest : rest <:+ entries) : Disciplined rest where
  capped := fun o => Nat.le_trans (hrest.filter _).length_le (h.capped o)
  generations := fun o => (h.generations o).suffix (hrest.filter _)
  ordered := h.ordered.sublist hrest.sublist
  genuine := fun entry hentry => h.genuine entry (hrest.subset hentry)

/-- A decision that its outage admits can be appended. -/
theorem Disciplined.append {s : Storage} {result : SLAResult}
    (h : Disciplined (History.shards s).items)
    (hs : (History.shards s).Sound SLAResult.outage_id 32)
    (admits : Admits s result.outage_id result.config_version_hash)
    (hdated : ∀ entry ∈ (History.shards s).items, entry.recorded_at ≤ result.recorded_at)
    (hsign : SignDisciplined result) (hgenuine : Genuine result) :
    Disciplined ((History.shards s).items ++ [result]) := by
  -- what the index finds for the outage is the last of its retained entries
  have hlatest : ∀ prev ∈ ((History.shards s).itemsOf SLAResult.outage_id
      result.outage_id).getLast?, prev.config_version_hash ≠ result.config_version_hash ∧
        (History.entryIndicesForOutage s result.outage_id).length < 16 := by
    intro prev hprev
    have hne : (History.shards s).itemsOf SLAResult.outage_id result.outage_id ≠ [] := by
      intro hnil
      simp [hnil] at hprev
    exact admits prev ((hs.latest_eq hne).trans hprev)
  have hcount : ((History.shards s).itemsOf SLAResult.outage_id result.outage_id).length ≤
      (History.entryIndicesForOutage s result.outage_id).length := by
    rw [← ShardedLog.filterMap_owned]
    exact Nat.le_trans (List.length_filterMap_le _ _) (hs.suffix _).length_le
  refine ⟨?_, ?_, ?_, ?_⟩
  · intro o
    by_cases ho : result.outage_id = o
    · subst ho
      rw [List.filter_append, List.length_append]
      rcases List.eq_nil_or_concat
        ((History.shards s).itemsOf SLAResult.outage_id result.outage_id) with hnil | ⟨_, prev, hl⟩
      · have hzero := congrArg List.length hnil
        simp only [ShardedLog.itemsOf, List.length_nil] at hzero
        simp [hzero]
      · have hroom := (hlatest prev (by simp [hl])).2
        simp only [ShardedLog.itemsOf] at hcount
        simp only [List.filter_cons, List.filter_nil, decide_true, if_true, List.length_cons,
          List.length_nil]
        omega
    · simpa [List.filter_append, ho] using h.capped o
  · intro o
    by_cases ho : result.outage_id = o
    · subst ho
      rw [List.filter_append]
      refine List.isChain_append.mpr ⟨h.generations _, by simp, ?_⟩
      intro prev hprev next hnext
      obtain rfl : result = next := by simpa using hnext
      exact (hlatest prev hprev).1
    · simpa [List.filter_append, ho] using h.generations o
  · refine List.pairwise_append.mpr ⟨h.ordered, by simp, ?_⟩
    intro a ha b hb
    rw [List.mem_singleton.mp hb]
    exact hdated a ha
  · intro entry hentry
    rcases List.mem_append.mp hentry with hold | hnew
    · exact h.genuine entry hold
    · rw [List.mem_singleton.mp hnew]
      exact ⟨hsign, hgenuine⟩

theorem disciplined_items {txs : List ContractTx} (htimes : NonDecreasing txs) :
    Disciplined (History.shards (after txs)).items := by
  refine after_induction (P := fun txs s => NonDecreasing txs →
    Disciplined (History.shards s).items) ?_ ?_ ?_ txs htimes
  · intro _
    rw [items_empty]
    exact ⟨by simp, by simp, by simp, by simp⟩
  · intro txs tx r s' evs ih he hi hsorted
    have hold := ih (List.pairwise_append.mp hsorted).1
    have hs := sound_after txs
    have hdated := dated_before hsorted
    have hsuffix := he.appends hs hdated
    rcases he.records_or_quiet with ⟨severity, cfg, result, hr⟩ | ⟨hquiet, -⟩
    · obtain ⟨-, -, -, hhash, htime⟩ := computeResult_inputs hr.computed
      rw [hr.events, decisions_recordedEvents] at hsuffix
      refine (hold.append hs (hhash ▸ hr.admits) ?_ (computeResult_signDisciplined hr.computed)
        (hr.genuine (inBounds_after hr.config))).suffix hsuffix
      rw [htime]
      exact hdated.past
    · rw [decisions_of_quiet hquiet, List.append_nil] at hsuffix
      exact hold.suffix hsuffix
  · intro txs tx x ih hi hsorted
    exact ih (List.pairwise_append.mp hsorted).1

/-- Over every run whose ledger times do not decrease, the retained history is disciplined. -/
theorem disciplined_after (txs : List ContractTx) (htimes : NonDecreasing txs) :
    Disciplined (History.readAllEntries (after txs)) := by
  rw [History.readAllEntries_eq_items (sound_after txs).bounded]
  exact disciplined_items htimes

theorem disciplined_after_oneDecision : Disciplined [sampleDecision] :=
  disciplined_after oneDecision (by simp [NonDecreasing, oneDecision, launch, submitTen])

end ApexChainx
