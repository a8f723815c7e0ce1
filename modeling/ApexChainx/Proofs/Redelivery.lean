import ApexChainx.Host.Timeless
import ApexChainx.Proofs.Batches
import ApexChainx.Proofs.Recovery

/-!
# At-least-once delivery

A relay that does not know whether its submission went through sends it again, in the same ledger or
in a later one. As long as none of the outages loses an entry to the eviction, the repetitions do
nothing: they write nothing, commit no event, and are answered as the first delivery was
(`redelivery_harmless`). With `submissions_commute`, in whatever order and however often the
submissions arrive, each is settled once.
-/

namespace ApexChainx

open Host Misc

/-! ## One request in two ledgers -/

section Ledgers

variable {f f' : Frame Address} {s : Storage} {caller : Address} {outage_id severity : Symbol}
  {mttr : Nat}

/-- The time enters the decision as `recorded_at` only. -/
theorem computeResult_at (outage_id : Symbol) (mttr : Nat) (cfg : SLAConfig) (hash now now' : Nat) :
    computeResult outage_id mttr cfg hash now' =
      ({ · with recorded_at := now' }) <$> computeResult outage_id mttr cfg hash now := by
  unfold computeResult
  split
  · simp only [computePenalty, map_bind, map_pure]
  · simp only [computeReward, map_bind, map_pure]

/-- The checks of `calculate_sla` before it looks at the time. -/
def checkSubmission (caller : Address) (severity : Symbol) (mttr : Nat) :
    Contract (SLAConfig × Nat) := do
  Contract.reads checkVersion
  Contract.reads fun _ => validateMttrBound mttr
  Contract.reads requireNotPaused
  requireOperator caller
  let cfg ← Contract.reads (loadConfig severity)
  let hash ← Contract.reads (computeSeverityConfigHash severity)
  pure (cfg, hash)

/-- The decision at the time of the ledger. -/
def decideNow (outage_id : Symbol) (mttr : Nat) (cfg : SLAConfig) (hash : Nat) :
    Contract (SLAConfig × Nat × SLAResult) := do
  let now ← Prog.timestamp
  let result ← Contract.reads fun _ => computeResult outage_id mttr cfg hash now
  pure (cfg, hash, result)

theorem decideNow_ok {env : ContractEnv} {cfg : SLAConfig} {hash : Nat} {result : SLAResult}
    (h : computeResult outage_id mttr cfg hash f.timestamp = .ok result) :
    (decideNow outage_id mttr cfg hash).Returns f env (cfg, hash, result) env := by
  simp [decideNow, h]

theorem decideNow_error {env : ContractEnv} {cfg : SLAConfig} {hash : Nat} {e : SLAError}
    (h : computeResult outage_id mttr cfg hash f.timestamp = .error e) :
    (decideNow outage_id mttr cfg hash).Fails f env (.err e) env := by
  have hreads : (Contract.reads fun _ => computeResult outage_id mttr cfg hash f.timestamp).Fails f
      env (.err e) env := by
    simp only [Prog.Fails, Contract.reads, Prog.reads, h]
  exact hreads.bind _

theorem computeSubmission_eq (caller : Address) (outage_id severity : Symbol) (mttr : Nat) :
    computeSubmission caller outage_id severity mttr =
      checkSubmission caller severity mttr >>= fun checked =>
        decideNow outage_id mttr checked.1 checked.2 := by
  simp only [checkSubmission, Prog.bind_assoc]
  rfl

theorem checkSubmission_timeless (caller : Address) (severity : Symbol) (mttr : Nat) :
    (checkSubmission caller severity mttr).Timeless :=
  .bind (.reads _) fun _ => .bind (.reads _) fun _ => .bind (.reads _) fun _ =>
    .bind (.bind (.requireAuth _) fun _ => .bind (.getOr _ _) fun _ => .failIf _ _) fun _ =>
    .bind (.reads _) fun _ => .bind (.reads _) fun _ => .pure _

/-- In two frames with the same authorizations a submission is refused alike, or gets as far as its
decision in both. -/
theorem refused_or_submits_at (hauths : f.auths = f'.auths) (s : Storage) (caller : Address)
    (outage_id severity : Symbol) (mttr : Nat) :
    (∃ x, invoke exec (submission f caller outage_id severity mttr) s = ⟨s, [], .error x⟩ ∧
      invoke exec (submission f' caller outage_id severity mttr) s = ⟨s, [], .error x⟩) ∨
    ∃ cfg result result', Submits f s caller outage_id severity mttr cfg result ∧
      Submits f' s caller outage_id severity mttr cfg result' := by
  have hsame := checkSubmission_timeless caller severity mttr f f' ⟨s, [], []⟩ hauths
  rcases Prog.returns_or_fails (checkSubmission caller severity mttr) f ⟨s, [], []⟩ with
    ⟨⟨cfg, hash⟩, mid, h⟩ | ⟨x, mid, h⟩
  · have h' : (checkSubmission caller severity mttr).Returns f' ⟨s, [], []⟩ (cfg, hash) mid :=
      hsame.symm.trans h
    have hbind := h.bind_apply fun checked => decideNow outage_id mttr checked.1 checked.2
    have hbind' := h'.bind_apply fun checked => decideNow outage_id mttr checked.1 checked.2
    rw [← computeSubmission_eq] at hbind hbind'
    have hcomputed' := computeResult_at outage_id mttr cfg hash f.timestamp f'.timestamp
    cases hcomputed : computeResult outage_id mttr cfg hash f.timestamp with
    | ok result =>
      rw [hcomputed] at hcomputed'
      have hsubmits := submits_of_computed (hbind.trans (decideNow_ok hcomputed))
      have hsubmits' := submits_of_computed (hbind'.trans (decideNow_ok hcomputed'))
      exact .inr ⟨cfg, result, _, hsubmits, hsubmits'⟩
    | error e =>
      rw [hcomputed] at hcomputed'
      exact .inl ⟨.err e, refused_of_computed (hbind.trans (decideNow_error hcomputed)),
        refused_of_computed (hbind'.trans (decideNow_error hcomputed'))⟩
  · have h' : (checkSubmission caller severity mttr).Fails f' ⟨s, [], []⟩ x mid :=
      hsame.symm.trans h
    exact .inl ⟨x, refused_of_computed (computeSubmission_eq .. ▸ h.bind _),
      refused_of_computed (computeSubmission_eq .. ▸ h'.bind _)⟩

/-- A submission that gets as far as its decision gets as far in any frame with the same
authorizations, on any storage that differs in the books only. -/
theorem Submits.transfer {s' : Storage} {cfg : SLAConfig} {result : SLAResult}
    (h : Submits f s caller outage_id severity mttr cfg result) (hauths : f.auths = f'.auths)
    (hagree : Store.Agree {k | isBookKey k = false} s s') :
    ∃ result', Submits f' s' caller outage_id severity mttr cfg result' := by
  obtain ⟨⟨version, unpaused, signed, operator⟩, bound, config, computed⟩ := h
  have hcomputed := computeResult_at outage_id mttr cfg (severityConfigHash cfg) f.timestamp
    f'.timestamp
  rw [computed] at hcomputed
  refine ⟨_, ⟨(hagree .storageVersion rfl).symm.trans version, ?_, hauths ▸ signed,
    (hagree .operator rfl).symm.trans operator⟩, bound, ?_, hcomputed⟩
  · rw [isPaused, ← hagree .paused rfl]
    exact unpaused
  · rw [← config]
    exact (loadConfig_of_config (hagree .config rfl)
      (customConfigs_of_key (hagree .customConfig rfl)) severity).symm

/-- What a submission is answered that is not given a decision of its own depends on the entries of
the outage only. -/
theorem answer_unmoved {s' : Storage} {cfg : SLAConfig}
    (hlatest : History.latestForOutage s outage_id = History.latestForOutage s' outage_id)
    (hcount : (History.entryIndicesForOutage s outage_id).length =
      (History.entryIndicesForOutage s' outage_id).length)
    (hno : ¬ Admits s outage_id (severityConfigHash cfg)) (result result' : SLAResult) :
    answer s' outage_id mttr cfg result' = answer s outage_id mttr cfg result := by
  unfold answer
  rw [← hlatest, ← hcount]
  cases hprev : History.latestForOutage s outage_id with
  | none => exact absurd (fun prev h => by simp [hprev] at h) hno
  | some prev =>
    dsimp only
    by_cases generation : prev.config_version_hash = severityConfigHash cfg
    · rw [if_pos generation, if_pos generation]
    · rw [if_neg generation, if_neg generation]
      by_cases full : maxRecalcsPerOutage ≤ (History.entryIndicesForOutage s outage_id).length
      · rw [if_pos full, if_pos full]
      · refine absurd (fun prev' h => ?_) hno
        obtain rfl : prev = prev' := by simpa [hprev] using h
        exact ⟨generation, Nat.lt_of_not_le full⟩

end Ledgers

/-! ## Repeated deliveries -/

/-- The same submission, perhaps in another ledger. -/
structure SameRequest (b b' : Submission) : Prop where
  caller : b.caller = b'.caller
  outage_id : b.outage_id = b'.outage_id
  severity : b.severity = b'.severity
  mttr : b.mttr = b'.mttr
  auths : b.frame.auths = b'.frame.auths

/-- The deliveries that are the first for their outage. -/
def firsts (deliveries : List Submission) : List Submission :=
  deliveries.foldl (fun kept b =>
    if b.outage_id ∈ kept.map Submission.outage_id then kept else kept ++ [b]) []

theorem firsts_concat (deliveries : List Submission) (b : Submission) :
    firsts (deliveries ++ [b]) =
      if b.outage_id ∈ (firsts deliveries).map Submission.outage_id then firsts deliveries
      else firsts deliveries ++ [b] := by
  simp [firsts, List.foldl_append]

theorem firsts_subset (deliveries : List Submission) : firsts deliveries ⊆ deliveries := by
  induction deliveries using List.reverseRecOn with
  | nil => exact List.Subset.refl _
  | append_singleton deliveries b ih =>
    rw [firsts_concat]
    split
    · exact List.Subset.trans ih (List.subset_append_left _ _)
    · exact List.append_subset.mpr ⟨List.Subset.trans ih (List.subset_append_left _ _),
        List.subset_append_right _ _⟩

theorem firsts_prefix {done deliveries : List Submission} (h : done <+: deliveries) :
    firsts done <+: firsts deliveries := by
  obtain ⟨later, rfl⟩ := h
  induction later using List.reverseRecOn with
  | nil => simp
  | append_singleton later b ih =>
    rw [← List.append_assoc, firsts_concat]
    split
    · exact ih
    · exact ih.trans (List.prefix_append _ _)

section Steps

variable {txs : List ContractTx} {done : List Submission} {b b' : Submission}

/-- What a batch stored for one of its outages is what that submission stores alone. -/
theorem stored_in_batch (s : Storage) (hdistinct : (done.map Submission.outage_id).Nodup)
    (hmem : b ∈ done) :
    (storedBy s done).filter (·.outage_id = b.outage_id) = b.stored s := by
  have hone := length_filter_outage hdistinct b.outage_id
  have hb : b ∈ done.filter (·.outage_id = b.outage_id) := List.mem_filter.mpr ⟨hmem, by simp⟩
  have hfilter : done.filter (·.outage_id = b.outage_id) = [b] := by
    obtain ⟨c, hc⟩ := List.length_eq_one_iff.mp (le_antisymm hone (List.length_pos_of_mem hb))
    rw [hc, List.mem_singleton] at hb
    rw [hc, hb]
  rw [filter_storedBy, hfilter, storedBy_cons, storedBy_nil, List.append_nil]

/-- A delivery that repeats one of a batch does nothing, and is answered as that one is alone. -/
theorem Along.repeated (h : Along txs done) (hi : HistoryExact (after txs))
    (hb : History.tail (after txs) < 2 ^ 32) (hs : Separate (after txs) done) (hmem : b ∈ done)
    (hsame : SameRequest b b') :
    invoke exec b'.tx (after (txs ++ done.map Submission.tx)) =
      ⟨after (txs ++ done.map Submission.tx), [], (invoke exec b.tx (after txs)).reply⟩ := by
  have hitems := h.itemsOf hb hs List.prefix_rfl ⟨b, hmem, rfl⟩
  rw [stored_in_batch _ hs.distinct hmem] at hitems
  have hlatest := latestForOutage_eq h.exact.exact b.outage_id
  have hcount := length_entryIndicesForOutage h.exact.exact b.outage_id
  rw [hitems] at hlatest hcount
  have hother := h.other
  generalize after (txs ++ done.map Submission.tx) = s' at hlatest hcount hother ⊢
  have htx' : b'.tx = submission b'.frame b.caller b.outage_id b.severity b.mttr := by
    rw [Submission.tx, hsame.caller, hsame.outage_id, hsame.severity, hsame.mttr]
  rw [htx']
  by_cases hsubmits : ∃ cfg result,
      Submits b.frame (after txs) b.caller b.outage_id b.severity b.mttr cfg result
  · obtain ⟨cfg, result, hsubmits⟩ := hsubmits
    obtain ⟨result', hsubmits'⟩ := hsubmits.transfer hsame.auths hother
    by_cases admits : Admits (after txs) b.outage_id (severityConfigHash cfg)
    · -- it was decided, and the decision is the latest of the outage
      obtain ⟨s₁, hstored⟩ := hsubmits.stored admits
      obtain ⟨-, hmttr, hthreshold, hhash, -⟩ := computeResult_inputs hsubmits.computed
      rw [hstored.stored, List.getLast?_concat] at hlatest
      have hdiffers : ¬ Differs result b.mttr cfg := by simp [Differs, hmttr, hthreshold]
      rw [hstored.outcome]
      exact reply_of_returns (hsubmits'.replays hlatest hhash hdiffers)
    · -- nothing was stored for it, so it finds the same entries
      have hunmoved := hsubmits.unmoved admits
      have hnone : b.stored (after txs) = [] := by
        rw [Submission.stored, Submission.tx, hunmoved]
        rfl
      rw [hnone, List.append_nil] at hlatest hcount
      rw [← latestForOutage_eq hi.exact] at hlatest
      rw [← length_entryIndicesForOutage hi.exact] at hcount
      have hno' : ¬ Admits s' b.outage_id (severityConfigHash cfg) := by
        unfold Admits
        rw [hlatest, hcount]
        exact admits
      rw [hsubmits'.unmoved hno', Submission.tx, hunmoved,
        answer_unmoved hlatest.symm hcount.symm admits result result']
  · rcases refused_or_submits hother b.frame b.caller b.outage_id b.severity b.mttr with
      ⟨x, hx, hx'⟩ | ⟨cfg, result, hsubmits', -⟩
    · rcases refused_or_submits_at hsame.auths s' b.caller b.outage_id b.severity b.mttr with
        ⟨y, hy, hy'⟩ | ⟨cfg, result, result', hsubmits', -⟩
      · rw [hx'] at hy
        simp only [Outcome.mk.injEq, Except.error.injEq, true_and] at hy
        rw [hy', Submission.tx, hx, hy]
      · exact absurd (hsubmits'.transfer rfl fun k hk => (hother k hk).symm) (by
          rintro ⟨result', h'⟩
          exact hsubmits ⟨cfg, result', h'⟩)
    · exact absurd ⟨cfg, result, hsubmits'⟩ hsubmits

end Steps

/-- Deliveries have the effect of the first ones of each outage. -/
structure SettlesOnce (txs : List ContractTx) (done : List Submission) : Prop where
  state : after (txs ++ done.map Submission.tx) = after (txs ++ (firsts done).map Submission.tx)
  events : committed exec (after txs) (done.map Submission.tx) =
    committed exec (after txs) ((firsts done).map Submission.tx)

/-- The delivery is answered as the first one of its outage is alone. -/
def AnsweredAsFirst (txs : List ContractTx) (deliveries done : List Submission)
    (b' : Submission) : Prop :=
  ∃ b ∈ firsts deliveries, SameRequest b b' ∧
    (invoke exec b'.tx (after (txs ++ done.map Submission.tx))).reply =
      (invoke exec b.tx (after txs)).reply

section Runs

variable {txs : List ContractTx} {deliveries done : List Submission} {b' : Submission}

theorem committed_concat (s : Storage) (calls : List ContractTx) (tx : ContractTx) :
    committed exec s (calls ++ [tx]) =
      committed exec s calls ++ (invoke exec tx (final exec s calls)).events := by
  rw [committed_append, committed_singleton]

/-- One more delivery. -/
theorem SettlesOnce.step (h : SettlesOnce txs done) (hi : HistoryExact (after txs))
    (hlimit : 1 ≤ retentionLimit (after txs))
    (hroom : History.tail (after txs) + (firsts deliveries).length < 2 ^ 32)
    (hs : Separate (after txs) (firsts deliveries)) (hpre : done ++ [b'] <+: deliveries)
    (hsame : ∀ b ∈ deliveries, b.outage_id = b'.outage_id → SameRequest b b') :
    SettlesOnce txs (done ++ [b']) ∧ AnsweredAsFirst txs deliveries done b' := by
  have hdone : done <+: deliveries := (List.prefix_append _ _).trans hpre
  have hfirsts := firsts_prefix hdone
  have halong := along_batch hi hlimit hroom hs hfirsts
  have hruns : ∀ l : List Submission, txs ++ (l ++ [b']).map Submission.tx =
      txs ++ l.map Submission.tx ++ [b'.tx] := fun l => by simp
  have hfinal : ∀ l : List Submission,
      final exec (after txs) (l.map Submission.tx) = after (txs ++ l.map Submission.tx) :=
    fun l => (final_append ..).symm
  by_cases hmem : b'.outage_id ∈ (firsts done).map Submission.outage_id
  · obtain ⟨b, hb, houtage⟩ := List.mem_map.mp hmem
    have hrequest := hsame b (hdone.subset (firsts_subset done hb)) houtage
    have hrepeated := halong.repeated hi (by omega) (hs.front hfirsts) hb hrequest
    refine ⟨⟨?_, ?_⟩, b, hfirsts.subset hb, hrequest, ?_⟩
    · rw [firsts_concat, if_pos hmem, hruns, after_concat, h.state, hrepeated]
    · rw [firsts_concat, if_pos hmem, List.map_append, List.map_singleton, committed_concat, hfinal,
        h.state, hrepeated, h.events, List.append_nil]
    · rw [h.state, hrepeated]
  · have hnew : firsts (done ++ [b']) = firsts done ++ [b'] := by
      rw [firsts_concat, if_neg hmem]
    have hfront : firsts done ++ [b'] <+: firsts deliveries := hnew ▸ firsts_prefix hpre
    have hb' : b' ∈ deliveries := hpre.subset (by simp)
    refine ⟨⟨?_, ?_⟩, b', hfront.subset (by simp), hsame b' hb' rfl, ?_⟩
    · rw [hnew, hruns, hruns, after_concat, after_concat, h.state]
    · rw [hnew, List.map_append, List.map_singleton, committed_concat, hfinal, h.state, h.events,
        List.map_append, List.map_singleton, committed_concat, hfinal]
    · rw [h.state]
      obtain ⟨post, hpost⟩ := hfront
      have hsplit : firsts deliveries = firsts done ++ b' :: post := by rw [← hpost]; simp
      exact reply_in_batch hi hlimit hroom hs hsplit

end Runs

/-- At-least-once delivery, over every run in which `initialize` succeeds once. Submissions that are
delivered any number of times, in any order and at any times, none of whose outages loses an entry
to the eviction, leave the state and the events of the first delivery of each, and every delivery is
answered as the first one of its outage is alone. -/
theorem redelivery_harmless (txs : List ContractTx) (hone : initializations txs = 1)
    {deliveries : List Submission}
    (hsame : ∀ b ∈ deliveries, ∀ b' ∈ deliveries, b.outage_id = b'.outage_id → SameRequest b b')
    (hfew : (recorded txs).length + (firsts deliveries).length < 2 ^ 32)
    (hs : Separate (after txs) (firsts deliveries)) :
    SettlesOnce txs deliveries ∧
      ∀ pre b' post, deliveries = pre ++ b' :: post → AnsweredAsFirst txs deliveries pre b' := by
  obtain ⟨hi, htail⟩ := historyExact_after hone (by omega)
  have hhealthy : Healthy (after txs) :=
    healthy_of_stored (configSound_after (show 0 < initializations txs by omega)).version
  have hstep : ∀ {done b'}, SettlesOnce txs done → done ++ [b'] <+: deliveries →
      SettlesOnce txs (done ++ [b']) ∧ AnsweredAsFirst txs deliveries done b' := fun h hpre =>
    h.step hi hhealthy.limit.1 (by omega) hs hpre fun b hb =>
      hsame b hb _ (hpre.subset (by simp))
  have hsettles : ∀ done, done <+: deliveries → SettlesOnce txs done := by
    intro done
    induction done using List.reverseRecOn with
    | nil => exact fun _ => ⟨rfl, rfl⟩
    | append_singleton done b' ih =>
      exact fun hpre => (hstep (ih ((List.prefix_append _ _).trans hpre)) hpre).1
  refine ⟨hsettles _ List.prefix_rfl, ?_⟩
  rintro pre b' post rfl
  have hpre : pre ++ [b'] <+: pre ++ b' :: post := ⟨post, by simp⟩
  exact (hstep (hsettles pre (List.prefix_append _ _)) hpre).2

/-- A decided outage and a fresh one, each sent in one ledger and again in a later one. -/
theorem redelivery_harmless_roomForTwo :
    let replayed : Submission := ⟨⟨[⟨2⟩], 5, 5⟩, ⟨2⟩, sampleOutage, critical, 10⟩
    let fresh : Submission := ⟨⟨[⟨2⟩], 5, 5⟩, ⟨2⟩, critical, low, 400⟩
    let later : Submission → Submission := fun b => { b with frame := ⟨[⟨2⟩], 9, 9⟩ }
    after (roomForTwo ++ [replayed.tx, fresh.tx, (later fresh).tx, (later replayed).tx]) =
      after (roomForTwo ++ [replayed.tx, fresh.tx]) := by
  intro replayed fresh later
  have hsame : ∀ b ∈ [replayed, fresh, later fresh, later replayed],
      ∀ b' ∈ [replayed, fresh, later fresh, later replayed],
        b.outage_id = b'.outage_id → SameRequest b b' := by
    have hdistinct : sampleOutage ≠ critical := by decide
    simp only [List.mem_cons, List.not_mem_nil, or_false]
    rintro b (rfl | rfl | rfl | rfl) b' (rfl | rfl | rfl | rfl) h <;> first
      | exact ⟨rfl, rfl, rfl, rfl, rfl⟩
      | exact absurd h hdistinct
      | exact absurd h hdistinct.symm
  have hseparate : Separate (after roomForTwo)
      (firsts [replayed, fresh, later fresh, later replayed]) :=
    ⟨by decide, by decide, by decide⟩
  exact (redelivery_harmless roomForTwo (by decide) hsame (by decide) hseparate).1.state

end ApexChainx
