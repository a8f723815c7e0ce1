import ApexChainx.Proofs.Calculation
import ApexChainx.Proofs.HistoryInvariant

/-!
# Submissions of one outage

What a second `calculate_sla` on an outage does while an earlier decision is retained. The
duplicate check compares the hash of the submitted severity with that of the latest retained
entry only. So a stored decision is replayed after any interleaving that leaves the outage alone
(`replay_idempotent`), and a second decision is stored exactly when the submission loads a
configuration of another hash (`second_submission_iff`), which another severity does without
any configuration change.
-/

namespace ApexChainx

open Host Misc

/-! ## The retained entries across a call -/

section Steps

variable {f : Frame Address} {s s' : Storage} {c : Call} {r : Reply} {evs : List Event}

theorem Effect.decisions_eq_nil (he : Effect f s c r s' evs)
    (hc : ∀ caller outage_id severity mttr, c ≠ .calculateSla caller outage_id severity mttr) :
    decisions evs = [] := by
  rcases he.records_or_quiet with ⟨severity, cfg, result, hr⟩ | ⟨hquiet, -⟩
  · obtain ⟨caller, -, hcall⟩ := hr.call
    exact absurd hcall (hc _ _ _ _)
  · exact decisions_of_quiet hquiet

/-- Whether a retained entry is kept by the filter of a call: only an age prune filters. -/
def Call.retains (f : Frame Address) : Call → SLAResult → Bool
  | .pruneHistoryByAge _ min_age, entry => f.timestamp - min_age ≤ entry.recorded_at
  | _, _ => true

/-- A call keeps an end of the retained entries and of the decision it records, less the entries
that an age prune drops. -/
theorem Effect.items_suffix (he : Effect f s c r s' evs)
    (hs : (History.shards s).Sound SLAResult.outage_id 32) :
    (History.shards s').items <:+
      ((History.shards s).items ++ decisions evs).filter (c.retains f) := by
  have all : ∀ l : List SLAResult, l <:+ l.filter (fun _ => true) := fun l => by simp
  by_cases hon : c.onHistory = false
  · have hnone := he.decisions_eq_nil (by rintro _ _ _ _ rfl; cases hon)
    have hretains : c.retains f = fun _ => true := by
      cases c <;> first | rfl | cases hon
    rw [he.shards_eq hon, hretains, hnone, List.append_nil]
    exact all _
  · have hnone := fun hc => he.decisions_eq_nil hc
    cases he <;> simp only [Call.onHistory, not_true_eq_false, Bool.true_eq_false,
      not_false_eq_true] at hon
    case initialized admin operator _ _ _ =>
      rw [ShardedLog.items, ShardedLog.window, History.shards_len, len_initialized]
      exact List.nil_suffix
    case replayed =>
      rw [decisions_nil, List.append_nil]
      exact all _
    case recorded change =>
      rw [change.log, decisions_recordedEvents]
      exact (ShardedLog.items_record_suffix hs _ _).trans (all _)
    case pruned change _ =>
      rw [hnone (by simp), List.append_nil, change.log, ShardedLog.items_dropTo hs]
      exact (List.drop_suffix _ _).trans (all _)
    case keptAll min_age _ _ kept =>
      rw [recent, History.readAllEntries_eq_items hs.bounded] at kept
      rw [hnone (by simp), List.append_nil]
      exact kept.symm ▸ List.suffix_rfl
    case prunedByAge min_age _ _ _ _ change _ =>
      rw [hnone (by simp), List.append_nil, change.log, ShardedLog.items_rebuild, recent,
        History.readAllEntries_eq_items hs.bounded]
      exact List.suffix_rfl
    case retentionSet change _ =>
      rw [hnone (by simp), List.append_nil, change.log, ShardedLog.items_dropTo hs]
      exact (List.drop_suffix _ _).trans (all _)

end Steps

/-! ## A stored decision stays the latest of its outage -/

section Latest

variable {α : Type} {l l' : List α} {a : α}

/-- An end of a list that ends with `a` ends with `a`, or has lost it. -/
theorem getLast_or_gone_suffix (h : l' <:+ l) (hl : l.getLast? = some a ∨ a ∉ l) :
    l'.getLast? = some a ∨ a ∉ l' := by
  rcases hl with hlast | hgone
  · by_cases hnil : l' = []
    · exact .inr (by simp [hnil])
    · obtain ⟨front, rfl⟩ := h
      rw [List.getLast?_append_of_ne_nil _ hnil] at hlast
      exact .inl hlast
  · exact .inr fun hmem => hgone (h.subset hmem)

theorem getLast_or_gone_filter (keep : α → Bool) (hl : l.getLast? = some a ∨ a ∉ l) :
    (l.filter keep).getLast? = some a ∨ a ∉ l.filter keep := by
  rcases hl with hlast | hgone
  · by_cases hkeep : keep a = true
    · obtain ⟨front, rfl⟩ := List.getLast?_eq_some_iff.mp hlast
      exact .inl (by simp [hkeep])
    · exact .inr fun hmem => hkeep (List.mem_filter.mp hmem).2
  · exact .inr fun hmem => hgone (List.mem_filter.mp hmem).1

end Latest

/-- The decision is the latest retained one of its outage, or is no longer retained. -/
def LatestOrGone (decision : SLAResult) (s : Storage) : Prop :=
  ((History.shards s).itemsOf SLAResult.outage_id decision.outage_id).getLast? = some decision ∨
    decision ∉ (History.shards s).itemsOf SLAResult.outage_id decision.outage_id

/-- The call submits nothing for the outage. -/
def LeavesAlone (outage_id : Symbol) (c : Call) : Prop :=
  ∀ caller severity mttr, c ≠ .calculateSla caller outage_id severity mttr

section Steps

variable {f : Frame Address} {s s' : Storage} {c : Call} {r : Reply} {evs : List Event}
  {decision : SLAResult}

theorem Effect.latestOrGone (he : Effect f s c r s' evs)
    (hs : (History.shards s).Sound SLAResult.outage_id 32)
    (hc : LeavesAlone decision.outage_id c) (h : LatestOrGone decision s) :
    LatestOrGone decision s' := by
  have hsuffix := he.items_suffix hs
  have hnone : (decisions evs).filter (·.outage_id = decision.outage_id) = [] := by
    rcases he.records_or_quiet with ⟨severity, cfg, result, hr⟩ | ⟨hquiet, -⟩
    · obtain ⟨caller, -, hcall⟩ := hr.call
      have hne : result.outage_id ≠ decision.outage_id := fun e => hc _ _ _ (e ▸ hcall)
      simp [hr.events, hne]
    · simp [decisions_of_quiet hquiet]
  have hof : ((History.shards s').items).filter (·.outage_id = decision.outage_id) <:+
      (((History.shards s).items.filter (·.outage_id = decision.outage_id)).filter
        (c.retains f)) := by
    have := hsuffix.filter (fun entry : SLAResult => entry.outage_id = decision.outage_id)
    rwa [List.filter_comm, List.filter_append, hnone, List.append_nil] at this
  exact getLast_or_gone_suffix hof (getLast_or_gone_filter (c.retains f) h)

/-- A decision that has just been recorded is the latest of its outage. -/
theorem Records.latestOrGone {severity : Symbol} {cfg : SLAConfig}
    (hr : Records f s c r s' evs severity cfg decision)
    (hs : (History.shards s).Sound SLAResult.outage_id 32) : LatestOrGone decision s' := by
  have hsuffix := ShardedLog.items_record_suffix hs (retentionLimit s) decision
  rw [← hr.change.log] at hsuffix
  have hof := hsuffix.filter (fun entry : SLAResult => entry.outage_id = decision.outage_id)
  exact getLast_or_gone_suffix hof (.inl (by simp))

end Steps

theorem latestOrGone_run {decision : SLAResult} {s : Storage} (hc : Current s)
    (hs : (History.shards s).Sound SLAResult.outage_id 32) (h : LatestOrGone decision s)
    {txs : List ContractTx} (halone : ∀ tx ∈ txs, LeavesAlone decision.outage_id tx.call) :
    LatestOrGone decision (final exec s txs) := by
  induction txs generalizing s with
  | nil => exact h
  | cons tx txs ih =>
    rw [final_cons]
    have hrest := fun tx' htx' => halone tx' (List.mem_cons_of_mem _ htx')
    rcases invoke_effect hc tx with ⟨r, s', evs, he, hi⟩ | ⟨x, hi⟩
    · rw [hi]
      exact ih (he.current hc) (he.sound hs)
        (he.latestOrGone hs (halone tx (List.mem_cons_self ..)) h) hrest
    · rw [hi]
      exact ih hc hs h hrest

/-- A decision that is retained and not followed by another of its outage is what the index
finds. -/
theorem LatestOrGone.latest {decision : SLAResult} {s : Storage}
    (hs : (History.shards s).Sound SLAResult.outage_id 32) (h : LatestOrGone decision s)
    (retained : decision ∈ History.readAllEntries s) :
    History.latestForOutage s decision.outage_id = some decision := by
  have hmem : decision ∈ (History.shards s).itemsOf SLAResult.outage_id decision.outage_id := by
    rw [History.readAllEntries_eq_items hs.bounded] at retained
    exact List.mem_filter.mpr ⟨retained, by simp⟩
  have hlatest : (History.shards s).latest decision.outage_id = _ :=
    hs.latest_eq (List.ne_nil_of_mem hmem)
  exact hlatest.trans (h.resolve_right fun hgone => hgone hmem)

/-! ## Replay -/

/-- The first submission of the two: it succeeded with `decision` and stored it. -/
structure Stores (s : Storage) (tx : ContractTx) (outage_id severity : Symbol) (mttr : Nat)
    (decision : SLAResult) : Prop where
  call : ∃ caller, tx.call = .calculateSla caller outage_id severity mttr
  reply : (invoke exec tx s).reply = .ok (.decision decision)
  stored : decisions (invoke exec tx s).events = [decision]

/-- A stored decision comes from a recorded effect. -/
theorem Stores.records {s : Storage} (hc : Current s) {tx : ContractTx}
    {outage_id severity : Symbol} {mttr : Nat} {decision : SLAResult}
    (h : Stores s tx outage_id severity mttr decision) :
    ∃ s' evs cfg, Records tx.frame s tx.call (.decision decision) s' evs severity cfg decision ∧
      outage_id = decision.outage_id ∧ mttr = decision.mttr_minutes ∧
      (invoke exec tx s).storage = s' := by
  obtain ⟨s', evs, he, hi⟩ := effect_of_reply hc h.reply
  rcases he.records_or_quiet with ⟨severity', cfg, result, hr⟩ | ⟨hquiet, -⟩
  · obtain ⟨caller, -, hcall⟩ := hr.call
    obtain ⟨caller', hcall'⟩ := h.call
    obtain ⟨-, rfl, rfl, rfl⟩ := Call.calculateSla.inj (hcall'.symm.trans hcall)
    obtain rfl := Reply.decision.inj hr.reply
    exact ⟨s', evs, cfg, hr, rfl, rfl, by rw [hi]⟩
  · have hstored := h.stored
    rw [hi, decisions_of_quiet hquiet] at hstored
    cases hstored

/-- What the later submission finds: the decision still retained, the operator authorized, the
contract unpaused, and the severity holding the configuration it had on `s₀`. -/
structure Resubmits (f : Frame Address) (s₀ s : Storage) (operator : Address) (severity : Symbol)
    (decision : SLAResult) : Prop where
  retained : decision ∈ History.readAllEntries s
  unpaused : isPaused s = false
  standing : s .operator = some operator
  signed : operator ∈ f.auths
  same : loadConfig severity s = loadConfig severity s₀

/-- A contract with an operator is on the current version. -/
theorem byOperator_after {txs : List ContractTx} {f : Frame Address} {operator : Address}
    (unpaused : isPaused (after txs) = false) (standing : after txs .operator = some operator)
    (signed : operator ∈ f.auths) : ByOperator f (after txs) operator := by
  refine ⟨?_, unpaused, signed, standing⟩
  rcases Nat.eq_zero_or_pos (initializations txs) with hzero | hpos
  · rw [after_eq_empty hzero] at standing
    cases standing
  · exact (configSound_after hpos).version

theorem after_append_cons (txs : List ContractTx) (tx : ContractTx) (rest : List ContractTx) :
    after (txs ++ tx :: rest) = final exec (invoke exec tx (after txs)).storage rest := by
  rw [after, final_append]
  rfl

/-- Replay is idempotent: after any calls that submit nothing for the outage and leave the
stored decision retained, the same submission under the same configuration returns exactly that
decision, writing no key and publishing no event, and a different duration is refused as a
duplicate, writing no key. -/
theorem replay_idempotent (txs rest : List ContractTx) (first : ContractTx)
    (outage_id severity : Symbol) (mttr : Nat) (decision : SLAResult)
    (hfirst : Stores (after txs) first outage_id severity mttr decision)
    (halone : ∀ tx ∈ rest, LeavesAlone outage_id tx.call) (f : Frame Address)
    (operator : Address)
    (hagain : Resubmits f (after txs) (after (txs ++ first :: rest)) operator severity decision) :
    let s := after (txs ++ first :: rest)
    (calculateSla operator outage_id severity mttr).Returns f ⟨s, [], []⟩ decision ⟨s, [], []⟩ ∧
      ∀ mttr' ≤ 525600, mttr' ≠ mttr → ∃ env',
        (calculateSla operator outage_id severity mttr').Fails f ⟨s, [], []⟩
          (.err .DuplicateOutageInput) env' ∧ env'.storage = s ∧ env'.writes = [] := by
  intro s
  obtain ⟨s₁, evs, cfg, hr, rfl, rfl, hpost⟩ := hfirst.records (current_after txs)
  -- the decision is what the index finds at the end
  have hlatest : History.latestForOutage s decision.outage_id = some decision := by
    obtain ⟨s', evs', he, hi⟩ := effect_of_reply (current_after txs) hfirst.reply
    obtain rfl : s' = s₁ := by rw [← hpost, hi]
    have hlast := latestOrGone_run (he.current (current_after txs)) (he.sound (sound_after txs))
      (hr.latestOrGone (sound_after txs)) halone
    have hend : s = final exec s' rest := by rw [← hpost]; exact after_append_cons txs first rest
    exact LatestOrGone.latest (sound_after _) (hend ▸ hlast) hagain.retained
  have hbyOperator := byOperator_after hagain.unpaused hagain.standing hagain.signed
  have hconfig : loadConfig severity s = .ok cfg := hagain.same.trans hr.config
  obtain ⟨-, -, hthreshold, hhash, -⟩ := computeResult_inputs hr.computed
  have hsubmits : ∀ mttr ≤ maxMttr, ∃ result,
      Submits f s operator decision.outage_id severity mttr cfg result := fun mttr hmttr => by
    obtain ⟨result, computed⟩ := computeResult_ok (inBounds_after hconfig) hmttr
    exact ⟨result, hbyOperator, hmttr, hconfig, computed⟩
  refine ⟨?_, ?_⟩
  · obtain ⟨result, h⟩ := hsubmits decision.mttr_minutes hr.bound
    exact h.replays hlatest hhash (by simp [Differs, hthreshold])
  · intro mttr' hmttr' hne
    obtain ⟨result, h⟩ := hsubmits mttr' hmttr'
    exact ⟨_, h.duplicates hlatest hhash (.inl (Ne.symm hne)), rfl, rfl⟩

theorem replay_idempotent_critical :
    (calculateSla ⟨2⟩ sampleOutage critical 10).Returns ⟨[⟨2⟩], 4, 4⟩
      ⟨after (launch ++ submitTen 2 critical ::
        [submission ⟨[⟨2⟩], 3, 3⟩ ⟨2⟩ (symbolShort "other") low 10]), [], []⟩ sampleDecision
      ⟨after (launch ++ submitTen 2 critical ::
        [submission ⟨[⟨2⟩], 3, 3⟩ ⟨2⟩ (symbolShort "other") low 10]), [], []⟩ :=
  (replay_idempotent launch [submission ⟨[⟨2⟩], 3, 3⟩ ⟨2⟩ (symbolShort "other") low 10]
    (submitTen 2 critical) sampleOutage critical 10 sampleDecision
    ⟨⟨⟨2⟩, rfl⟩, by decide, by decide⟩ (by
      intro tx htx caller severity mttr hcall
      obtain rfl := List.mem_singleton.mp htx
      exact absurd (Call.calculateSla.inj hcall).2.1 (by decide)) ⟨[⟨2⟩], 4, 4⟩ ⟨2⟩
    ⟨by decide, by decide, by decide, by decide, by decide⟩).1

/-! ## A second decision -/

/-- The call changed the configuration of a severity. -/
def changesConfig (st : ContractStep) : Bool :=
  match st.tx.call with
  | .setConfig _ _ _ _ _ | .setCustomSeverity _ _ _ _ _ | .removeCustomSeverity _ _ => succeeds st
  | _ => false

/-- Two submissions of one outage with no configuration change between them, the decision of the
first still retained at the second. -/
structure SubmitsTwice (txs mid : List ContractTx) (first : ContractTx) (outage_id : Symbol)
    (decision : SLAResult) : Prop where
  stored : ∃ severity mttr, Stores (after txs) first outage_id severity mttr decision
  retained : decision ∈ History.readAllEntries (after (txs ++ first :: mid))
  unchanged : ∀ st ∈ trace exec (after (txs ++ [first])) mid, changesConfig st = false

/-- The outcome appends no history entry and changes no statistic: it returns a stored decision
of the outage or fails. -/
structure AddsNothing (s : Storage) (outage_id : Symbol)
    (outcome : Outcome StorageKey.Val Event SLAError Reply) : Prop where
  tail : History.tail outcome.storage = History.tail s
  entries : History.readAllEntries outcome.storage = History.readAllEntries s
  stats : outcome.storage .stats = s .stats
  reply : (∃ x, outcome.reply = .error x) ∨
    ∃ stored, History.latestForOutage s outage_id = some stored ∧
      outcome.reply = .ok (.decision stored)

/-- The submission passes the guards, and the configuration it loads has another hash than the
latest entry of the outage, which is below its limit. -/
structure OpensGeneration (f : Frame Address) (s : Storage) (caller : Address)
    (outage_id severity : Symbol) (mttr : Nat) : Prop where
  by_operator : ByOperator f s caller
  bound : mttr ≤ maxMttr
  other : ∃ cfg prev, loadConfig severity s = .ok cfg ∧
    History.latestForOutage s outage_id = some prev ∧
    prev.config_version_hash ≠ severityConfigHash cfg
  room : (History.entryIndicesForOutage s outage_id).length < maxRecalcsPerOutage

theorem SubmitsTwice.latest {txs mid : List ContractTx} {first : ContractTx} {outage_id : Symbol}
    {decision : SLAResult} (h : SubmitsTwice txs mid first outage_id decision) :
    ∃ prev, History.latestForOutage (after (txs ++ first :: mid)) outage_id = some prev := by
  obtain ⟨severity, mttr, hstores⟩ := h.stored
  obtain ⟨-, -, -, -, rfl, -, -⟩ := hstores.records (current_after txs)
  have hs := sound_after (txs ++ first :: mid)
  have hmem : decision ∈ (History.shards (after (txs ++ first :: mid))).itemsOf
      SLAResult.outage_id decision.outage_id := by
    have hretained := h.retained
    rw [History.readAllEntries_eq_items hs.bounded] at hretained
    exact List.mem_filter.mpr ⟨hretained, by simp⟩
  have hlatest : (History.shards (after (txs ++ first :: mid))).latest decision.outage_id = _ :=
    hs.latest_eq (List.ne_nil_of_mem hmem)
  rw [List.getLast?_eq_some_getLast (List.ne_nil_of_mem hmem)] at hlatest
  exact ⟨_, hlatest⟩

/-- A second submission of an outage adds nothing exactly when it does not open a generation of
another configuration hash. -/
theorem second_submission_iff (txs mid : List ContractTx) (first : ContractTx)
    (outage_id : Symbol) (decision : SLAResult)
    (htwice : SubmitsTwice txs mid first outage_id decision) (f : Frame Address)
    (caller : Address) (severity : Symbol) (mttr : Nat) :
    let s := after (txs ++ first :: mid)
    AddsNothing s outage_id (invoke exec ⟨.calculateSla caller outage_id severity mttr, f⟩ s) ↔
      ¬ OpensGeneration f s caller outage_id severity mttr := by
  intro s
  obtain ⟨prev, hlatest⟩ := htwice.latest
  constructor
  · rintro hnothing ⟨by_operator, bound, ⟨cfg, prev', config, hlatest', hother⟩, room⟩
    obtain rfl := Option.some.inj (hlatest.symm.trans hlatest')
    obtain ⟨result, computed⟩ := computeResult_ok (inBounds_after config) bound
    have hsubmits : Submits f s caller outage_id severity mttr cfg result :=
      ⟨by_operator, bound, config, computed⟩
    obtain ⟨env', hreturns, change, -⟩ := hsubmits.records fun other hother' => by
      obtain rfl := Option.some.inj (hlatest.symm.trans hother')
      exact ⟨hother, room⟩
    -- the stored decision takes a slot
    have htail : History.tail env'.storage = wrap 32 (History.tail s + 1) := by
      rw [← History.shards_tail, change.log, ShardedLog.tail_record]
      rfl
    have hbounded : History.tail s < 2 ^ 32 := (sound_after (txs ++ first :: mid)).bounded
    have hsame := hnothing.tail
    rw [reply_of_returns hreturns] at hsame
    simp only [htail, wrap] at hsame
    omega
  · intro hcloses
    rcases invoke_effect (current_after (txs ++ first :: mid))
      (submission f caller outage_id severity mttr) with ⟨r, s', evs, he, hi⟩ | ⟨x, hi⟩
    · rw [hi]
      cases he with
      | replayed _ _ _ _ hprev => exact ⟨rfl, rfl, rfl, .inr ⟨_, hprev, rfl⟩⟩
      | recorded by_operator bound config _ admits change =>
        obtain ⟨hother, room⟩ := admits prev hlatest
        exact absurd ⟨by_operator, bound, ⟨_, prev, config, hlatest, hother⟩, room⟩ hcloses
    · rw [hi]
      exact ⟨rfl, rfl, rfl, .inl ⟨x, rfl⟩⟩

theorem submitsTwice_oneDecision :
    SubmitsTwice launch [] (submitTen 2 critical) sampleOutage sampleDecision where
  stored := ⟨critical, 10, ⟨⟨2⟩, rfl⟩, by decide, by decide⟩
  retained := by decide
  unchanged := by decide

theorem second_submission_iff_high :
    AddsNothing (after oneDecision) sampleOutage
        (invoke exec ⟨.calculateSla ⟨2⟩ sampleOutage high 10, ⟨[⟨2⟩], 3, 3⟩⟩ (after oneDecision)) ↔
      ¬ OpensGeneration ⟨[⟨2⟩], 3, 3⟩ (after oneDecision) ⟨2⟩ sampleOutage high 10 :=
  second_submission_iff launch [] (submitTen 2 critical) sampleOutage sampleDecision
    submitsTwice_oneDecision ⟨[⟨2⟩], 3, 3⟩ ⟨2⟩ high 10

/-- An outage submitted as critical is given a second decision when it is submitted as high,
with no configuration change between the two. -/
theorem alternating_severities_add :
    SubmitsTwice launch [] (submitTen 2 critical) sampleOutage sampleDecision ∧
      ¬ AddsNothing (after oneDecision) sampleOutage
        (invoke exec (submitTen 3 high) (after oneDecision)) := by
  refine ⟨submitsTwice_oneDecision, ?_⟩
  intro h
  exact absurd h.tail (by decide)

end ApexChainx
