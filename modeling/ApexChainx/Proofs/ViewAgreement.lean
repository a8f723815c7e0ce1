import ApexChainx.Proofs.Health

/-!
# The view predicts the mutation

`calculate_sla_view`, `replay_calculate_sla` and `calculate_sla` repeat the same checks, lookups
and computation in different orders. On the states of a run they agree: the view answers what
the mutation answers, except for the recalculation limit, which only the mutation knows.
-/

namespace ApexChainx

open Host Misc

/-- The view computes a fresh decision: it answers, and no retained decision of the
configuration is there to be returned. -/
def ViewComputes (outage_id severity : Symbol) (mttr now : Nat) (s : Storage) : Prop :=
  (∃ fresh, calculateSlaView outage_id severity mttr now s = .ok fresh) ∧
    ∀ prev, History.latestForOutage s outage_id = some prev →
      computeSeverityConfigHash severity s ≠ .ok prev.config_version_hash

/-- The outage holds the maximum number of retained entries, as its index counts them. -/
def HoldsMaximum (s : Storage) (outage_id : Symbol) : Prop :=
  maxRecalcsPerOutage ≤ (History.entryIndicesForOutage s outage_id).length ∧
    (History.latestForOutage s outage_id).isSome

/-- An answer of the view, as the reply of a call. -/
def asReply : Except SLAError SLAResult → Except (Fault SLAError) Reply
  | .ok result => .ok (.decision result)
  | .error e => .error (.err e)

section Agreement

variable {f : Frame Address} {s : Storage} {operator : Address} {outage_id severity : Symbol}
  {mttr : Nat} {cfg : SLAConfig} {result : SLAResult}

/-- A submission that the checks before the duplicate detection refuse is refused by the view
and by the mutation alike. -/
theorem refused_alike (unpaused : isPaused s = false) (standing : s .operator = some operator)
    (signed : operator ∈ f.auths) (outage_id severity : Symbol) (mttr : Nat) :
    (∃ e, calculateSlaView outage_id severity mttr f.timestamp s = .error e ∧
      e ≠ .OutageRecalcLimit ∧
      invoke exec (submission f operator outage_id severity mttr) s = ⟨s, [], .error (.err e)⟩) ∨
    ByOperator f s operator ∧ mttr ≤ maxMttr ∧ ∃ cfg, loadConfig severity s = .ok cfg := by
  have hreads : ∀ {α : Type} {g : Storage → Except SLAError α} {a : α}, g s = .ok a →
      (Contract.reads g).Returns f ⟨s, [], []⟩ a ⟨s, [], []⟩ := fun hg => by simp [hg]
  have hstops : ∀ {α : Type} {g : Storage → Except SLAError α} {e : SLAError}, g s = .error e →
      (Contract.reads g).Fails f ⟨s, [], []⟩ (.err e) ⟨s, [], []⟩ := fun hg => by
    simp [Prog.Fails, Prog.reads, hg]
  have hoperator : (requireOperator operator).Returns f ⟨s, [], []⟩ () ⟨s, [], []⟩ := by
    simp [requireOperator, signed, standing]
  cases hversion : checkVersion s with
  | error e =>
    have hfails : (calculateSla operator outage_id severity mttr).Fails f ⟨s, [], []⟩ (.err e)
        ⟨s, [], []⟩ := (hstops hversion).bind _
    refine .inl ⟨e, by simp [calculateSlaView, hversion], ?_, reply_of_fails hfails⟩
    simp [checkVersion] at hversion
    rcases hversion with ⟨-, rfl⟩ | ⟨_, -, -, rfl⟩ <;> simp
  | ok =>
  cases hbound : validateMttrBound mttr with
  | error e =>
    have hfails : (calculateSla operator outage_id severity mttr).Fails f ⟨s, [], []⟩ (.err e)
        ⟨s, [], []⟩ := by
      unfold calculateSla
      rw [Prog.Fails, (hreads hversion).bind_apply]
      exact (hstops hbound).bind _
    refine .inl ⟨e, by simp [calculateSlaView, hversion, hbound], ?_, reply_of_fails hfails⟩
    simp [validateMttrBound] at hbound
    simp [← hbound.2]
  | ok =>
  cases hconfig : loadConfig severity s with
  | error e =>
    have hfails : (calculateSla operator outage_id severity mttr).Fails f ⟨s, [], []⟩ (.err e)
        ⟨s, [], []⟩ := by
      unfold calculateSla
      rw [Prog.Fails, (hreads hversion).bind_apply, (hreads hbound).bind_apply,
        (hreads (a := ()) (requireNotPaused_eq_ok.mpr unpaused)).bind_apply, hoperator.bind_apply]
      exact (hstops hconfig).bind _
    refine .inl ⟨e, by simp [calculateSlaView, hversion, hbound, hconfig], ?_,
      reply_of_fails hfails⟩
    unfold loadConfig at hconfig
    split at hconfig
    · simp at hconfig
      rcases hconfig with ⟨-, rfl⟩ | ⟨_, -, -, rfl⟩ <;> simp
    · simp at hconfig
      simp [← hconfig.2]
  | ok cfg =>
    exact .inr ⟨⟨checkVersion_eq_ok.mp hversion, unpaused, signed, standing⟩,
      validateMttrBound_eq_ok.mp hbound, cfg, rfl⟩

/-- The agreement on one state, for every answer of the view: the limit is the only exception,
and a stored decision is the replayed one. -/
structure Predicts (f : Frame Address) (s : Storage) (operator : Address)
    (outage_id severity : Symbol) (mttr : Nat) : Prop where
  limit : (invoke exec (submission f operator outage_id severity mttr) s).reply =
      .error (.err .OutageRecalcLimit) ↔
    ViewComputes outage_id severity mttr f.timestamp s ∧ HoldsMaximum s outage_id
  reply : (invoke exec (submission f operator outage_id severity mttr) s).reply ≠
      .error (.err .OutageRecalcLimit) →
    (invoke exec (submission f operator outage_id severity mttr) s).reply =
      asReply (calculateSlaView outage_id severity mttr f.timestamp s)
  replay : ∀ stored,
    decisions (invoke exec (submission f operator outage_id severity mttr) s).events = [stored] →
      replayCalculateSla outage_id severity mttr f.timestamp s =
        .ok (stored, stored.config_version_hash)

/-- A fresh decision is what the view and the replay compute. -/
theorem Submits.predicts_fresh (h : Submits f s operator outage_id severity mttr cfg result)
    (admits : Admits s outage_id (severityConfigHash cfg)) :
    Predicts f s operator outage_id severity mttr := by
  obtain ⟨env', hreturns, -, hevents⟩ := h.records admits
  have hview : calculateSlaView outage_id severity mttr f.timestamp s = .ok result := by
    rw [calculateSlaView_eq h.by_operator.version h.bound h.config h.computed]
    cases hlatest : History.latestForOutage s outage_id with
    | none => rfl
    | some prev => simp only [(admits prev hlatest).1, if_false]
  have houtcome := reply_of_returns hreturns
  refine ⟨⟨?_, ?_⟩, ?_, ?_⟩
  · intro hreply
    rw [houtcome] at hreply
    cases hreply
  · rintro ⟨-, hfull, hlatest⟩
    obtain ⟨prev, hprev⟩ := Option.isSome_iff_exists.mp hlatest
    exact absurd (admits prev hprev).2 (Nat.not_lt.mpr hfull)
  · intro _
    rw [houtcome, hview]
    rfl
  · intro stored hstored
    rw [houtcome, hevents, decisions_recordedEvents] at hstored
    obtain rfl := (List.cons.inj hstored).1
    rw [replayCalculateSla_eq h.by_operator.version h.bound h.config h.computed,
      (computeResult_inputs h.computed).2.2.2.1]

/-- Where the mutation records nothing, agreement is agreement of the reply. -/
theorem predicts_of_reply {x : Except (Fault SLAError) Reply}
    (houtcome : invoke exec (submission f operator outage_id severity mttr) s = ⟨s, [], x⟩)
    (hlimit : x ≠ .error (.err .OutageRecalcLimit))
    (hview : x = asReply (calculateSlaView outage_id severity mttr f.timestamp s))
    (hstored : ¬ (ViewComputes outage_id severity mttr f.timestamp s ∧ HoldsMaximum s outage_id)) :
    Predicts f s operator outage_id severity mttr := by
  refine ⟨⟨?_, fun h => absurd h hstored⟩, ?_, ?_⟩
  · intro hreply
    rw [houtcome] at hreply
    exact absurd hreply hlimit
  · intro _
    rw [houtcome]
    exact hview
  · intro stored hs
    rw [houtcome] at hs
    cases hs

/-- A submission against a stored decision is predicted by the view, in each of the three
outcomes. -/
theorem Submits.predicts_stored (h : Submits f s operator outage_id severity mttr cfg result)
    {prev : SLAResult} (hlatest : History.latestForOutage s outage_id = some prev)
    (hstored : ¬ Admits s outage_id (severityConfigHash cfg)) :
    Predicts f s operator outage_id severity mttr := by
  have hview := calculateSlaView_eq h.by_operator.version h.bound h.config h.computed
  have hhash := computeSeverityConfigHash_of_load h.config
  simp only [hlatest] at hview
  by_cases generation : prev.config_version_hash = severityConfigHash cfg
  · have hsame : ¬ (ViewComputes outage_id severity mttr f.timestamp s ∧
        HoldsMaximum s outage_id) := fun hcomputes =>
      hcomputes.1.2 prev hlatest (by rw [hhash, generation])
    by_cases hdiffers : Differs prev mttr cfg
    · refine predicts_of_reply (reply_of_fails (h.duplicates hlatest generation hdiffers))
        (by simp) ?_ hsame
      simp only [Differs] at hdiffers
      simp only [hview, generation, hdiffers, if_true]
      rfl
    · refine predicts_of_reply (reply_of_returns (h.replays hlatest generation hdiffers))
        (by simp) ?_ hsame
      simp only [Differs] at hdiffers
      simp only [hview, generation, hdiffers, if_true, if_false]
      rfl
  · have hfull : maxRecalcsPerOutage ≤ (History.entryIndicesForOutage s outage_id).length := by
      by_contra hroom
      apply hstored
      intro other hother
      obtain rfl := Option.some.inj (hlatest.symm.trans hother)
      exact ⟨generation, Nat.not_le.mp hroom⟩
    have houtcome := reply_of_fails (h.limited hlatest generation hfull)
    refine ⟨⟨?_, ?_⟩, ?_, ?_⟩
    · intro _
      refine ⟨⟨⟨result, ?_⟩, ?_⟩, hfull, by simp [hlatest]⟩
      · simp only [hview, generation, if_false]
      · intro other hother heq
        obtain rfl := Option.some.inj (hlatest.symm.trans hother)
        rw [hhash] at heq
        exact generation (Except.ok.inj heq).symm
    · intro _
      rw [houtcome]
    · intro hne
      exact absurd (by rw [houtcome]) hne
    · intro stored hs
      rw [houtcome] at hs
      cases hs

end Agreement

/-- Below the wrap of the counters the index counts the retained entries of the outage. -/
theorem holdsMaximum_iff {txs : List ContractTx} (hone : initializations txs = 1)
    (hfew : (recorded txs).length < 2 ^ 32) (outage_id : Symbol) :
    HoldsMaximum (after txs) outage_id ↔
      16 ≤ ((History.readAllEntries (after txs)).filter (·.outage_id = outage_id)).length := by
  obtain ⟨hexact, htail⟩ := historyExact_after hone hfew
  have hread := History.readAllEntries_eq_items (s := after txs) (by omega)
  have hlen : (History.entryIndicesForOutage (after txs) outage_id).length =
      ((History.shards (after txs)).itemsOf SLAResult.outage_id outage_id).length :=
    hexact.exact.length_index outage_id
  have hlatest : History.latestForOutage (after txs) outage_id =
      ((History.shards (after txs)).itemsOf SLAResult.outage_id outage_id).getLast? :=
    hexact.exact.latest_eq outage_id
  rw [HoldsMaximum, hlen, hlatest, hread]
  constructor
  · intro h
    exact h.1
  · intro h
    refine ⟨h, ?_⟩
    rw [Option.isSome_iff_ne_none, ne_eq, List.getLast?_eq_none_iff]
    intro hnil
    simp only [ShardedLog.itemsOf] at hnil
    simp [hnil] at h

/-! ## What is stored -/

/-- A decision recorded while the counters have room is the newest entry that is read. -/
theorem Recorded.newest {s s' : Storage} {result : SLAResult} (change : Recorded s result s')
    (hs : Healthy s) (hordered : History.head s ≤ History.tail s)
    (hroom : History.tail s + 1 < 2 ^ 32) :
    (History.readAllEntries s').getLast? = some result := by
  have htail : History.tail s' < 2 ^ 32 := by
    rw [← History.shards_tail, change.log, ShardedLog.tail_record]
    exact wrap_lt _ _
  have hlen : (History.readAllEntries s).length = History.len s :=
    length_readAllEntries hs.regular.sound
  rw [History.readAllEntries_eq_items htail, change.log,
    ShardedLog.items_record hs.regular.sound hordered hroom, ← hs.readAllEntries_eq]
  split
  · rename_i hover
    have hsome : History.readAllEntries s ≠ [] := by
      rw [← List.length_pos_iff, hlen, ← History.shards_len]
      have hlimit := hs.limit.1
      omega
    rw [List.tail_append_of_ne_nil hsome, List.getLast?_concat]
  · rw [List.getLast?_concat]

section Stored

variable {txs : List ContractTx} {f : Frame Address} {caller : Address}
  {outage_id severity : Symbol} {mttr : Nat}

/-- A submission that changes the storage commits the decision it stored. -/
theorem submission_stores
    (h : (invoke exec (submission f caller outage_id severity mttr) (after txs)).storage ≠
      after txs) :
    ∃ stored, decisions (invoke exec (submission f caller outage_id severity mttr)
      (after txs)).events = [stored] := by
  rcases invoke_effect (current_after txs) (submission f caller outage_id severity mttr) with
    ⟨r, s', evs, he, hi⟩ | ⟨x, hi⟩
  · rw [hi] at h ⊢
    cases he with
    | replayed => exact absurd rfl h
    | recorded => exact ⟨_, decisions_recordedEvents ..⟩
  · rw [hi] at h
    exact absurd rfl h

/-- Below the wrap of the counters it is the newest entry of the history. -/
theorem stored_newest (hone : initializations txs = 1)
    (hfew : (recorded txs).length + 1 < 2 ^ 32) {stored : SLAResult}
    (h : decisions (invoke exec (submission f caller outage_id severity mttr)
      (after txs)).events = [stored]) :
    (History.readAllEntries (invoke exec (submission f caller outage_id severity mttr)
      (after txs)).storage).getLast? = some stored := by
  obtain ⟨hexact, htail⟩ := historyExact_after hone (by omega)
  rcases invoke_effect (current_after txs) (submission f caller outage_id severity mttr) with
    ⟨r, s', evs, he, hi⟩ | ⟨x, hi⟩
  · rw [hi] at h ⊢
    cases he with
    | replayed => cases h
    | recorded by_operator _ _ _ _ change =>
      rw [decisions_recordedEvents] at h
      obtain rfl := List.singleton_inj.mp h
      exact change.newest (healthy_of_stored by_operator.version) hexact.exact.ordered (by omega)
  · rw [hi] at h
    cases h

end Stored

/-- On every unpaused state of a run, for the authorized operator: `calculate_sla` fails with
`OutageRecalcLimit` exactly when the view computes a fresh decision for an outage that holds the
maximum number of retained entries, otherwise it replies what the view answers, and a decision
it stores is the newest entry of the history and what the replay computes on the state before. -/
theorem view_predicts_calculation (txs : List ContractTx) (f : Frame Address)
    (operator : Address) (outage_id severity : Symbol) (mttr : Nat)
    (unpaused : isPaused (after txs) = false)
    (standing : after txs .operator = some operator) (signed : operator ∈ f.auths) :
    let s := after txs
    let view := calculateSlaView outage_id severity mttr f.timestamp s
    let outcome := invoke exec (submission f operator outage_id severity mttr) s
    (outcome.reply = .error (.err .OutageRecalcLimit) ↔
      ViewComputes outage_id severity mttr f.timestamp s ∧ HoldsMaximum s outage_id) ∧
    (outcome.reply ≠ .error (.err .OutageRecalcLimit) → outcome.reply = asReply view) ∧
    (∀ stored, decisions outcome.events = [stored] →
      replayCalculateSla outage_id severity mttr f.timestamp s =
        .ok (stored, stored.config_version_hash)) ∧
    (initializations txs = 1 → (recorded txs).length < 2 ^ 32 →
      (HoldsMaximum s outage_id ↔
        16 ≤ ((History.readAllEntries s).filter (·.outage_id = outage_id)).length)) ∧
    (outcome.storage ≠ s → ∃ stored, decisions outcome.events = [stored]) ∧
    (initializations txs = 1 → (recorded txs).length + 1 < 2 ^ 32 → ∀ stored,
      decisions outcome.events = [stored] →
        (History.readAllEntries outcome.storage).getLast? = some stored) := by
  intro s view outcome
  suffices h : Predicts f s operator outage_id severity mttr from
    ⟨h.limit, h.reply, h.replay, fun hone hfew => holdsMaximum_iff hone hfew outage_id,
      submission_stores, fun hone hfew _ => stored_newest hone hfew⟩
  rcases refused_alike unpaused standing signed outage_id severity mttr with
    ⟨e, hview, hne, houtcome⟩ | ⟨by_operator, bound, cfg, config⟩
  · apply predicts_of_reply houtcome (by simpa using hne) (by rw [hview]; rfl)
    intro h
    obtain ⟨⟨fresh, hfresh⟩, -⟩ := h.1
    rw [hview] at hfresh
    cases hfresh
  · obtain ⟨result, computed⟩ := computeResult_ok (inBounds_after config) bound
    have hsubmits : Submits f s operator outage_id severity mttr cfg result :=
      ⟨by_operator, bound, config, computed⟩
    by_cases hadmits : Admits s outage_id (severityConfigHash cfg)
    · exact hsubmits.predicts_fresh hadmits
    · cases hlatest : History.latestForOutage s outage_id with
      | none => exact absurd (fun prev hprev => by simp [hlatest] at hprev) hadmits
      | some prev => exact hsubmits.predicts_stored hlatest hadmits

/-- The outage that was evicted is decided afresh, under the configuration that was set. -/
theorem view_predicts_calculation_busyRun :
    let outcome := invoke exec (submission ⟨[⟨2⟩], 7, 7⟩ ⟨2⟩ sampleOutage critical 10)
      (after busyRun)
    outcome.reply = asReply (calculateSlaView sampleOutage critical 10 7 (after busyRun)) ∧
      ∃ stored, (History.readAllEntries outcome.storage).getLast? = some stored ∧
        replayCalculateSla sampleOutage critical 10 7 (after busyRun) =
          .ok (stored, stored.config_version_hash) := by
  obtain ⟨-, hreply, hreplay, -, hstores, hnewest⟩ := view_predicts_calculation busyRun
    ⟨[⟨2⟩], 7, 7⟩ ⟨2⟩ sampleOutage critical 10 (by decide) (by decide) (by decide)
  have hchanged : (invoke exec (submission ⟨[⟨2⟩], 7, 7⟩ ⟨2⟩ sampleOutage critical 10)
      (after busyRun)).storage ≠ after busyRun := by
    intro hsame
    have htail := congrArg History.tail hsame
    revert htail
    decide +kernel
  obtain ⟨stored, hstored⟩ := hstores hchanged
  exact ⟨hreply (by decide +kernel), stored, hnewest (by decide) (by decide) stored hstored,
    hreplay stored hstored⟩

end ApexChainx
