import ApexChainx.Proofs.Calculation
import ApexChainx.Proofs.Handoffs

/-!
# What a rejection leaves behind

An accept of a lapsed proposal clears the pending slot and announces the expiry, and a
conflicting submission publishes the decision it conflicts with; but both then return an error,
for which the host discards their writes and their events. So the proposal stays in its slot and
nothing is announced, at every such call (`effects_survive_iff`).
-/

namespace ApexChainx

open Host Misc

/-! ## The rejected calls -/

/-- An accept that gets to the pending slot: its caller signed, on a thawed contract. -/
structure Reaches (st : ContractStep) (role : Role) (caller : Address) : Prop where
  call : st.tx.call = role.accept caller
  version : st.pre .storageVersion = some storageVersion
  thawed : isConfigFrozen st.pre = false
  signed : caller ∈ st.tx.frame.auths

/-- An accept that finds the proposal of `candidate` lapsed. -/
structure FindsLapse (st : ContractStep) (role : Role) (caller candidate : Address) : Prop
    extends Reaches st role caller where
  pending : st.pre (.pending role) = some candidate
  lapsed : ∃ since, st.pre (.pendingTs role) = some since ∧
    proposalExpiryWindow < st.tx.frame.timestamp - since

/-- A submission that passes the guards and differs from the latest decision of its outage,
which is of its generation. -/
def Conflicts (st : ContractStep) : Prop :=
  ∃ caller outage_id severity mttr cfg result prev,
    st.tx.call = .calculateSla caller outage_id severity mttr ∧
    Submits st.tx.frame st.pre caller outage_id severity mttr cfg result ∧
    History.latestForOutage st.pre outage_id = some prev ∧
    prev.config_version_hash = severityConfigHash cfg ∧ Differs prev mttr cfg

/-! ## The effects they are documented to have -/

/-- The event that announces the expiry of a proposal. -/
def Role.expiry : Role → Address → Address → Event
  | .admin => .adminXp
  | .operator => .opXp

/-- The event announces an expiry for the role. -/
def Event.isExpiry : Role → Event → Bool
  | .admin, .adminXp _ _ | .operator, .opXp _ _ => true
  | _, _ => false

/-- The expiry is committed: the slot is empty and the expiry announced once, and until another
proposal for the role the accepts find nothing pending and announce nothing. -/
structure Expires (st : ContractStep) (role : Role) (caller candidate : Address) : Prop where
  pending : st.post exec (.pending role) = none
  pendingTs : st.post exec (.pendingTs role) = none
  announced : (st.events exec).filter (Event.isExpiry role) = [role.expiry caller candidate]
  settled : ∀ later,
    (∀ st' ∈ trace exec (st.post exec) later, ∀ nominee since, ¬ Opens role nominee since st') →
    ∀ st' ∈ trace exec (st.post exec) later, ∀ attempt, Reaches st' role attempt →
      (st'.outcome exec).reply = .error (.err .NoPendingTransfer) ∧
        ∀ ev ∈ st'.events exec, ev.isExpiry role = false

/-- The effects of the rejected calls of a run are committed. -/
structure EffectsSurvive (txs : List ContractTx) : Prop where
  expiry : ∀ st ∈ steps txs, ∀ role caller candidate, FindsLapse st role caller candidate →
    Expires st role caller candidate
  conflict : ∀ st ∈ steps txs, ∀ caller outage_id severity mttr,
    st.tx.call = .calculateSla caller outage_id severity mttr →
    (st.outcome exec).reply = .error (.err .DuplicateOutageInput) →
    ∃ prev inputs, History.latestForOutage st.pre outage_id = some prev ∧
      Event.dupInput severity prev inputs ∈ st.events exec

/-! ## What is committed -/

/-- The expiry check of a lapsed proposal stops the call, after it announced the expiry and
cleared the slot. -/
theorem requireProposalValid_fails {f : Frame Address} {s : Storage} {role : Role}
    {candidate : Address} {since : Nat} (pending : s (.pending role) = some candidate)
    (hts : s (.pendingTs role) = some since)
    (hlapsed : proposalExpiryWindow < f.timestamp - since) (expiry : Address → Event) :
    (requireProposalValid role expiry).Fails f ⟨s, [], []⟩ (.err .ProposalExpired)
      (((Env.publish ⟨s, [], []⟩ (expiry candidate)).remove (.pending role)).remove
        (.pendingTs role)) := by
  have hlate : ¬ f.timestamp - since ≤ proposalExpiryWindow := Nat.not_le.mpr hlapsed
  have hsince : (Contract.getOr (.pendingTs role) .NoPendingTransfer).Returns f ⟨s, [], []⟩ since
      ⟨s, [], []⟩ := by simp [hts]
  have htime : (Prog.timestamp : Contract Nat).Returns f ⟨s, [], []⟩ f.timestamp ⟨s, [], []⟩ :=
    rfl
  have hstale : (Contract.get (.pending role)).Returns f ⟨s, [], []⟩ (some candidate)
      ⟨s, [], []⟩ := by simp [pending]
  unfold requireProposalValid
  rw [Prog.Fails, hsince.bind_apply, htime.bind_apply, if_neg hlate, hstale.bind_apply]
  rfl

/-- An accept of a lapsed proposal stops with its expiry announced and its slot cleared. -/
theorem FindsLapse.fails {st : ContractStep} {role : Role} {caller candidate : Address}
    (h : FindsLapse st role caller candidate) :
    (exec st.tx.call).Fails st.tx.frame ⟨st.pre, [], []⟩ (.err .ProposalExpired)
      (((Env.publish ⟨st.pre, [], []⟩ (role.expiry caller candidate)).remove
        (.pending role)).remove (.pendingTs role)) := by
  obtain ⟨s, tx⟩ := st
  obtain ⟨⟨call, version, thawed, signed⟩, pending, since, hts, hlapsed⟩ := h
  dsimp only at call version thawed signed pending hts hlapsed
  have hversion : (Contract.reads checkVersion).Returns tx.frame ⟨s, [], []⟩ () ⟨s, [], []⟩ := by
    simp [version]
  have hthawed : (Contract.reads requireNotFrozen).Returns tx.frame ⟨s, [], []⟩ ()
      ⟨s, [], []⟩ := by simp [thawed]
  have hsigned : (Prog.requireAuth caller : Contract Unit).Returns tx.frame ⟨s, [], []⟩ ()
      ⟨s, [], []⟩ := by simp [signed]
  have hpending : (Contract.getOr (.pending role) .NoPendingTransfer).Returns tx.frame
      ⟨s, [], []⟩ candidate ⟨s, [], []⟩ := by simp [pending]
  have hfails := requireProposalValid_fails pending hts hlapsed (role.expiry caller)
  dsimp only
  rw [call]
  cases role
  · refine Prog.Fails.bind ?_ _
    unfold acceptAdmin
    rw [Prog.Fails, hversion.bind_apply, hthawed.bind_apply, hsigned.bind_apply,
      hpending.bind_apply]
    exact hfails.bind _
  · refine Prog.Fails.bind ?_ _
    unfold acceptOperator
    rw [Prog.Fails, hversion.bind_apply, hthawed.bind_apply, hsigned.bind_apply,
      hpending.bind_apply]
    exact hfails.bind _

/-- An accept of a lapsed proposal is rejected, and leaves the proposal in its slot. -/
theorem FindsLapse.rejected {st : ContractStep} {role : Role} {caller candidate : Address}
    (h : FindsLapse st role caller candidate) :
    st.outcome exec = ⟨st.pre, [], .error (.err .ProposalExpired)⟩ :=
  invoke_of_fails h.fails

/-- So its expiry is not committed. -/
theorem FindsLapse.not_expires {st : ContractStep} {role : Role} {caller candidate : Address}
    (h : FindsLapse st role caller candidate) : ¬ Expires st role caller candidate := by
  intro hexpires
  have hkept : st.post exec (.pending role) = some candidate := by
    simp only [Step.post, h.rejected]
    exact h.pending
  rw [hexpires.pending] at hkept
  cases hkept

/-- A conflicting submission is rejected, and publishes nothing. -/
theorem Conflicts.rejected {st : ContractStep} (h : Conflicts st) :
    st.outcome exec = ⟨st.pre, [], .error (.err .DuplicateOutageInput)⟩ := by
  obtain ⟨caller, outage_id, severity, mttr, cfg, result, prev, call, submits, latest, generation,
    differs⟩ := h
  obtain ⟨s, ⟨c, f⟩⟩ := st
  subst call
  exact reply_of_fails (submits.duplicates latest generation differs)

/-! ## Where the duplicate error comes from -/

theorem checkVersion_ne_duplicate (s : Storage) :
    checkVersion s ≠ .error .DuplicateOutageInput := by
  simp [checkVersion]

theorem loadConfig_ne_duplicate (severity : Symbol) (s : Storage) :
    loadConfig severity s ≠ .error .DuplicateOutageInput := by
  unfold loadConfig
  split <;> simp

theorem computeResult_ne_duplicate (outage_id : Symbol) (mttr : Nat) (cfg : SLAConfig)
    (hash now : Nat) :
    computeResult outage_id mttr cfg hash now ≠ .error .DuplicateOutageInput := by
  unfold computeResult
  split <;> simp [computePenalty, computeReward, -bind_pure_comp]

/-- A submission rejected as a duplicate conflicts with the latest decision of its outage. -/
theorem conflicts_of_duplicate {f : Frame Address} {s : Storage} {caller : Address}
    {outage_id severity : Symbol} {mttr : Nat} {env' : ContractEnv}
    (h : (calculateSla caller outage_id severity mttr).Fails f ⟨s, [], []⟩
      (.err .DuplicateOutageInput) env') :
    Conflicts ⟨s, submission f caller outage_id severity mttr⟩ := by
  obtain ⟨_, _, hreturns, h₁⟩ := Prog.Never.of_bind (.reads checkVersion_ne_duplicate) h
  obtain ⟨version, rfl⟩ := (Prog.returns_reads ..).mp hreturns
  obtain ⟨_, _, hreturns, h₂⟩ := Prog.Never.of_bind
    (.reads fun _ => by simp [validateMttrBound]) h₁
  obtain ⟨bound, rfl⟩ := (Prog.returns_reads ..).mp hreturns
  obtain ⟨_, _, hreturns, h₃⟩ := Prog.Never.of_bind
    (.reads fun _ => by simp [requireNotPaused]) h₂
  obtain ⟨unpaused, rfl⟩ := (Prog.returns_reads ..).mp hreturns
  obtain ⟨_, _, hoperator, h₄⟩ := Prog.Never.of_bind (.bind (.requireAuth _ _) fun _ =>
    .bind (.getOr _ (by decide)) fun _ => .failIf _ (by decide)) h₃
  simp at hoperator
  obtain ⟨signed, operator, rfl⟩ := hoperator
  obtain ⟨cfg, _, hreturns, h₅⟩ := Prog.Never.of_bind
    (.reads (loadConfig_ne_duplicate severity)) h₄
  obtain ⟨config, rfl⟩ := (Prog.returns_reads ..).mp hreturns
  obtain ⟨hash, _, hreturns, h₆⟩ := Prog.Never.of_bind (.reads fun s => by
    simp [computeSeverityConfigHash, loadConfig_ne_duplicate, -bind_pure_comp]) h₅
  obtain ⟨hash_eq, rfl⟩ := (Prog.returns_reads ..).mp hreturns
  obtain ⟨now, _, hreturns, h₇⟩ := Prog.Never.of_bind (Prog.Total.timestamp.never _) h₆
  obtain ⟨rfl, rfl⟩ := (Prog.returns_timestamp ..).mp hreturns
  obtain ⟨result, _, hreturns, -⟩ := Prog.Never.of_bind
    (.reads fun _ => computeResult_ne_duplicate _ _ _ _ _) h₇
  obtain ⟨computed, rfl⟩ := (Prog.returns_reads ..).mp hreturns
  have hscoped := (computeSeverityConfigHash_of_load config).symm.trans hash_eq
  simp only [Except.ok.injEq] at hscoped
  subst hscoped
  have submits : Submits f s caller outage_id severity mttr cfg result :=
    ⟨⟨checkVersion_eq_ok.mp version, requireNotPaused_eq_ok.mp unpaused, signed, operator⟩,
      validateMttrBound_eq_ok.mp bound, config, computed⟩
  have hrecord : ∀ indices, ¬ (recordDecision severity result indices).Fails f ⟨s, [], []⟩
      (.err .DuplicateOutageInput) env' := fun indices =>
    (recordDecision_total severity result indices).never _ f _ _
  rw [Prog.Fails, submits.calculateSla_eq] at h
  cases latest : History.latestForOutage s outage_id with
  | none =>
    rw [latest] at h
    exact absurd h (hrecord _)
  | some prev =>
    rw [latest] at h
    by_cases generation : prev.config_version_hash = severityConfigHash cfg
    · by_cases differs : Differs prev mttr cfg
      · exact ⟨_, _, _, _, cfg, result, prev, rfl, submits, latest, generation, differs⟩
      · have hreplays := (submits.replays latest generation differs)
        rw [Prog.Returns, submits.calculateSla_eq, latest] at hreplays
        cases hreplays.symm.trans h
    · by_cases hfull : (History.entryIndicesForOutage s outage_id).length ≥ maxRecalcsPerOutage
      · simp only [settle, generation, hfull, if_true, if_false, Prog.fail] at h
        cases h
      · simp only [settle, generation, hfull, if_false] at h
        exact absurd h (hrecord _)

/-! ## The exact condition -/

/-- The effects of the rejected calls of a run are committed exactly when it has no such call: no
accept finds its proposal lapsed, and no submission conflicts. -/
theorem effects_survive_iff (txs : List ContractTx) :
    EffectsSurvive txs ↔ ∀ st ∈ steps txs,
      (∀ role caller candidate, ¬ FindsLapse st role caller candidate) ∧ ¬ Conflicts st := by
  constructor
  · intro h st hst
    refine ⟨?_, ?_⟩
    · intro role caller candidate hfinds
      exact hfinds.not_expires (h.expiry st hst role caller candidate hfinds)
    · intro hconflicts
      obtain ⟨caller, outage_id, severity, mttr, -, -, -, call, -⟩ := id hconflicts
      obtain ⟨prev, inputs, -, hmem⟩ := h.conflict st hst caller outage_id severity mttr call
        (by rw [hconflicts.rejected])
      rw [Step.events, hconflicts.rejected] at hmem
      cases hmem
  · intro h
    refine ⟨?_, ?_⟩
    · intro st hst role caller candidate hfinds
      exact absurd hfinds ((h st hst).1 role caller candidate)
    · intro st hst caller outage_id severity mttr call hreply
      refine absurd ?_ (h st hst).2
      obtain ⟨s, ⟨c, f⟩⟩ := st
      subst call
      rcases Prog.returns_or_fails (calculateSla caller outage_id severity mttr) f ⟨s, [], []⟩
        with ⟨result, env', hreturns⟩ | ⟨x, env', hfails⟩
      · rw [Step.outcome, show invoke exec _ s = _ from reply_of_returns hreturns] at hreply
        cases hreply
      · rw [Step.outcome, show invoke exec _ s = _ from reply_of_fails hfails] at hreply
        cases hreply
        exact conflicts_of_duplicate hfails

/-- The operator role is offered, and the candidate accepts a second after the window. -/
def lapsedRun : List ContractTx :=
  launch ++ [⟨.proposeOperator ⟨1⟩ ⟨3⟩, ⟨[⟨1⟩], 2, 2⟩⟩,
    ⟨.acceptOperator ⟨3⟩, ⟨[⟨3⟩], 2 + proposalExpiryWindow + 1, 3⟩⟩]

/-- The expiry of the proposal is not committed. -/
theorem lapsedRun_not_survive : ¬ EffectsSurvive lapsedRun := by
  intro h
  have hfinds : FindsLapse ⟨after (launch ++ [⟨.proposeOperator ⟨1⟩ ⟨3⟩, ⟨[⟨1⟩], 2, 2⟩⟩]),
      ⟨.acceptOperator ⟨3⟩, ⟨[⟨3⟩], 2 + proposalExpiryWindow + 1, 3⟩⟩⟩ .operator ⟨3⟩ ⟨3⟩ :=
    ⟨⟨rfl, by decide, by decide, by decide⟩, by decide, 2, by decide, by decide⟩
  exact hfinds.not_expires
    (h.expiry _ (by simp [lapsedRun, steps, launch, trace]) .operator _ _ hfinds)

end ApexChainx
