import ApexChainx.Proofs.ConfigInvariant

/-!
# Role handoffs

A role is handed over by a proposal that its candidate accepts. The two pending slots, each a
candidate key and a timestamp key, hold exactly the live proposal of their role: the most recent
successful one, unless a later call ended it (`tracks_after`). So an acceptance succeeds exactly
for the live nominee, in time and on a thawed contract (`handoffs_follow_live_proposals`).
-/

namespace ApexChainx

open Host Misc

/-! ## Live proposals -/

/-- The candidate a call proposes for the role. -/
def Call.proposes : Role → Call → Option Address
  | .admin, .proposeAdmin _ candidate => some candidate
  | .operator, .proposeOperator _ candidate => some candidate
  | _, _ => none

/-- The call ends an open proposal for the role. -/
def Call.ends : Role → Call → Bool
  | .admin, .acceptAdmin _ | .admin, .cancelAdminProposal _ | .admin, .renounceAdmin _ => true
  | .operator, .acceptOperator _ | .operator, .cancelOperatorProposal _ => true
  | .operator, .setOperator _ _ | .operator, .renounceAdmin _ => true
  | _, _ => false

/-- The step leaves the proposals for the role alone. -/
def Spares (role : Role) (st : ContractStep) : Prop :=
  succeeds st = true → st.tx.call.proposes role = none ∧ st.tx.call.ends role = false

/-- The step opens a proposal of `candidate` for the role, at the time `since`. -/
def Opens (role : Role) (candidate : Address) (since : Nat) (st : ContractStep) : Prop :=
  succeeds st = true ∧ st.tx.call.proposes role = some candidate ∧
    st.tx.frame.timestamp = since

/-- The most recent successful proposal for the role is of `candidate`, at the time `since`, and
no later call ended it. -/
def Live (past : List ContractStep) (role : Role) (candidate : Address) (since : Nat) : Prop :=
  ∃ earlier st later, past = earlier ++ st :: later ∧ Opens role candidate since st ∧
    ∀ st' ∈ later, Spares role st'

section Live

variable {past : List ContractStep} {st : ContractStep} {role : Role} {candidate : Address}
  {since : Nat}

/-- A proposal is live after a step that opens it, and after one that spares it. -/
theorem live_append :
    Live (past ++ [st]) role candidate since ↔
      Opens role candidate since st ∨ Spares role st ∧ Live past role candidate since := by
  constructor
  · rintro ⟨earlier, first, later, hsplit, hopens, hspares⟩
    rcases List.eq_nil_or_concat later with rfl | ⟨later, last, rfl⟩
    · obtain ⟨-, hlast⟩ := List.append_inj' hsplit rfl
      obtain rfl := (List.singleton_inj.mp hlast)
      exact .inl hopens
    · rw [List.concat_eq_append] at hsplit hspares
      have hassoc : past ++ [st] = (earlier ++ first :: later) ++ [last] := by simp [hsplit]
      obtain ⟨rfl, hlast⟩ := List.append_inj' hassoc rfl
      obtain rfl := List.singleton_inj.mp hlast
      refine .inr ⟨hspares _ (by simp), earlier, first, later, rfl, hopens, ?_⟩
      intro st' hst'
      exact hspares st' (by simp [hst'])
  · rintro (hopens | ⟨hspares, earlier, first, later, rfl, hopens, hlater⟩)
    · exact ⟨past, st, [], rfl, hopens, by simp⟩
    · refine ⟨earlier, first, later ++ [st], by simp, hopens, ?_⟩
      intro st' hst'
      rcases List.mem_append.mp hst' with hst' | hst'
      · exact hlater st' hst'
      · rw [List.mem_singleton.mp hst']
        exact hspares

end Live

/-! ## The pending slots -/

/-- The slot of the role holds the live proposal, and its two keys come and go together. -/
structure Tracks (past : List ContractStep) (s : Storage) (role : Role) : Prop where
  live : ∀ candidate since, Live past role candidate since ↔
    s (.pending role) = some candidate ∧ s (.pendingTs role) = some since
  paired : s (.pending role) = none ↔ s (.pendingTs role) = none

section Steps

variable {f : Frame Address} {s s' : Storage} {c : Call} {r : Reply} {evs : List Event}
  {role : Role}

/-- A proposal fills the slot. -/
theorem Effect.slot_proposed (he : Effect f s c r s' evs) {candidate : Address}
    (hc : c.proposes role = some candidate) :
    s' (.pending role) = some candidate ∧ s' (.pendingTs role) = some f.timestamp := by
  cases role <;> cases he <;> simp only [Call.proposes, Option.some.injEq, reduceCtorEq] at hc <;>
    subst hc <;> simp [proposed]

/-- Dropping an operator proposal empties its slot, when the two keys come together. -/
theorem droppedPending_slot (hpaired : s (.pending .operator) = none ↔
      s (.pendingTs .operator) = none) :
    droppedPending s (.pending .operator) = none ∧
      droppedPending s (.pendingTs .operator) = none := by
  cases hp : s (.pending .operator) with
  | none => simpa [droppedPending, hp] using hpaired.mp hp
  | some candidate => simp [droppedPending, clearedPending, hp]

/-- A call that ends a proposal empties the slot. -/
theorem Effect.slot_ended (he : Effect f s c r s' evs)
    (hpaired : s (.pending role) = none ↔ s (.pendingTs role) = none)
    (hc : c.ends role = true) : s' (.pending role) = none ∧ s' (.pendingTs role) = none := by
  cases role <;> cases he <;> simp only [Call.ends, Bool.false_eq_true] at hc
  case operator.operatorSet =>
    simpa using droppedPending_slot hpaired
  case operator.renounced =>
    apply droppedPending_slot
    simpa [clearedPending] using hpaired
  case admin.renounced =>
    unfold droppedPending
    split <;> simp [clearedPending]
  all_goals simp [clearedPending]

/-- The other calls leave the slot. -/
theorem Call.touches_slot (hproposes : c.proposes role = none) (hends : c.ends role = false) :
    c.touches (.pending role) = false ∧ c.touches (.pendingTs role) = false := by
  cases role <;> cases c <;> simp only [Call.proposes, Call.ends, reduceCtorEq] at hproposes hends
  all_goals simp [Call.touches, History.isHistoryKey, isTelemetryKey]

/-- Every call keeps the slot at the live proposal. -/
theorem Tracks.effect {past : List ContractStep} {tx : ContractTx} (h : Tracks past s role)
    (he : Effect tx.frame s tx.call r s' evs) (hi : invoke exec tx s = ⟨s', evs, .ok r⟩) :
    Tracks (past ++ [⟨s, tx⟩]) s' role := by
  have hsucceeds := succeeds_of_ok hi
  cases hproposes : tx.call.proposes role with
  | some nominee =>
    obtain ⟨hpending, hts⟩ := he.slot_proposed hproposes
    refine ⟨?_, by simp [hpending, hts]⟩
    intro candidate since
    have hspares : ¬ Spares role ⟨s, tx⟩ := by
      intro hspares
      have hnone := (hspares hsucceeds).1
      rw [show tx.call.proposes role = none from hnone] at hproposes
      cases hproposes
    simp only [live_append, hspares, false_and, or_false, Opens, hsucceeds, hproposes, hpending,
      hts, Option.some.injEq, true_and]
  | none =>
    have hopens : ∀ candidate since, ¬ Opens role candidate since ⟨s, tx⟩ := by
      rintro candidate since ⟨-, hsome, -⟩
      rw [show tx.call.proposes role = some candidate from hsome] at hproposes
      cases hproposes
    cases hends : tx.call.ends role with
    | true =>
      obtain ⟨hpending, hts⟩ := he.slot_ended h.paired hends
      refine ⟨?_, by simp [hpending, hts]⟩
      intro candidate since
      have hspares : ¬ Spares role ⟨s, tx⟩ := by
        intro hspares
        have hfalse := (hspares hsucceeds).2
        rw [show tx.call.ends role = false from hfalse] at hends
        cases hends
      simp [live_append, hopens, hspares, hpending]
    | false =>
      obtain ⟨hpending, hts⟩ := Call.touches_slot hproposes hends
      refine ⟨?_, by rw [he.frame hpending, he.frame hts]; exact h.paired⟩
      intro candidate since
      have hspares : Spares role ⟨s, tx⟩ := fun _ => ⟨hproposes, hends⟩
      simp only [live_append, hopens, hspares, false_or, true_and, he.frame hpending,
        he.frame hts]
      exact h.live candidate since

/-- A refused call spares every proposal. -/
theorem Tracks.refused {past : List ContractStep} {tx : ContractTx} {x : Fault SLAError}
    (h : Tracks past s role) (hi : invoke exec tx s = ⟨s, [], .error x⟩) :
    Tracks (past ++ [⟨s, tx⟩]) s role := by
  have hfails : succeeds ⟨s, tx⟩ = false := not_succeeds_of_refused hi
  refine ⟨?_, h.paired⟩
  intro candidate since
  have hspares : Spares role ⟨s, tx⟩ := by
    intro hsucceeds
    rw [hfails] at hsucceeds
    cases hsucceeds
  have hopens : ¬ Opens role candidate since ⟨s, tx⟩ := by
    rintro ⟨hsucceeds, -⟩
    rw [hfails] at hsucceeds
    cases hsucceeds
  simp only [live_append, hopens, hspares, false_or, true_and]
  exact h.live candidate since

end Steps

theorem tracks_after (txs : List ContractTx) (role : Role) :
    Tracks (steps txs) (after txs) role := by
  refine effect_induction (P := fun past s => Tracks past s role) ?_
    (fun _ _ _ _ _ _ _ h he hi => h.effect he hi) (fun _ _ _ _ h hi => h.refused hi) txs
  refine ⟨?_, by simp⟩
  intro candidate since
  simp [Live]

/-! ## Acceptances -/

/-- The candidate may take the role: it signs, the contract is thawed, and its proposal is the
live one and has not lapsed. -/
structure MayAccept (past : List ContractStep) (s : Storage) (f : Frame Address) (role : Role)
    (candidate : Address) : Prop where
  signed : candidate ∈ f.auths
  thawed : isConfigFrozen s = false
  inTime : ∃ since, Live past role candidate since ∧ f.timestamp - since ≤ proposalExpiryWindow

/-- An acceptance goes through when the slot names its caller and has not lapsed. -/
theorem accept_returns {f : Frame Address} {s : Storage} {role : Role} {caller : Address}
    (h : Accepts f s role caller) :
    ∃ env', (exec (role.accept caller)).Returns f ⟨s, [], []⟩ .unit env' := by
  obtain ⟨version, thawed, signed, pending, since, hts, inTime⟩ := h
  have hlapse : f.timestamp ≤ proposalExpiryWindow + since := by omega
  cases role <;>
    simp [Role.accept, exec, replyUnit, acceptAdmin, acceptOperator, version, thawed, signed,
      pending, hts, hlapse]

/-- A contract with an open proposal has been initialized. -/
theorem version_of_pending {txs : List ContractTx} {role : Role} {candidate : Address}
    (h : after txs (.pending role) = some candidate) :
    after txs .storageVersion = some storageVersion :=
  (configSound_of_stored h).version

theorem accepts_iff_mayAccept (txs : List ContractTx) (f : Frame Address) (role : Role)
    (candidate : Address) :
    Accepts f (after txs) role candidate ↔
      MayAccept (steps txs) (after txs) f role candidate := by
  have htracks := (tracks_after txs role).live candidate
  constructor
  · rintro ⟨-, thawed, signed, pending, since, hts, inTime⟩
    exact ⟨signed, thawed, since, (htracks since).mpr ⟨pending, hts⟩, inTime⟩
  · rintro ⟨signed, thawed, since, hlive, inTime⟩
    obtain ⟨pending, hts⟩ := (htracks since).mp hlive
    exact ⟨version_of_pending pending, thawed, signed, pending, since, hts, inTime⟩

theorem accept_succeeds_iff (txs : List ContractTx) (f : Frame Address) (role : Role)
    (candidate : Address) :
    succeeds ⟨after txs, ⟨role.accept candidate, f⟩⟩ = true ↔
      Accepts f (after txs) role candidate := by
  constructor
  · intro h
    obtain ⟨r, s', evs, he, -⟩ := effect_of_succeeds (current_after txs) h
    cases role <;> cases he <;> assumption
  · intro h
    obtain ⟨env', hreturns⟩ := accept_returns h
    exact succeeds_of_returns hreturns

/-- The address in a role. -/
def holder (s : Storage) : Role → Option Address
  | .admin => s .admin
  | .operator => s .operator

/-- Who holds a role after a call that changes it: the nominee who accepted it, no one once the
admin renounced, or the operator that the admin appointed. -/
inductive Takes (txs : List ContractTx) (tx : ContractTx) (s' : Storage) : Role → Prop
  | accepted {role candidate} (call : tx.call = role.accept candidate)
      (allowed : MayAccept (steps txs) (after txs) tx.frame role candidate)
      (installed : holder s' role = some candidate) : Takes txs tx s' role
  | renounced {caller} (call : tx.call = .renounceAdmin caller)
      (by_admin : ByAdmin tx.frame (after txs) caller) (vacant : holder s' .admin = none) :
      Takes txs tx s' .admin
  | appointed {caller new_operator} (call : tx.call = .setOperator caller new_operator)
      (by_admin : ByAdmin tx.frame (after txs) caller)
      (installed : holder s' .operator = some new_operator) : Takes txs tx s' .operator

/-- Acceptances succeed exactly for the live nominee, who then holds the role and has no proposal
left to accept, a refused one changes nothing, the two keys of a pending slot come and go
together, and no other call hands a role over. -/
structure Handoffs (txs : List ContractTx) : Prop where
  accepts : ∀ role candidate f, succeeds ⟨after txs, ⟨role.accept candidate, f⟩⟩ = true ↔
    MayAccept (steps txs) (after txs) f role candidate
  installs : ∀ role candidate f, MayAccept (steps txs) (after txs) f role candidate →
    let post := (invoke exec ⟨role.accept candidate, f⟩ (after txs)).storage
    holder post role = some candidate ∧ post (.pending role) = none ∧
      post (.pendingTs role) = none
  refuses : ∀ role candidate f, ¬ MayAccept (steps txs) (after txs) f role candidate →
    (invoke exec ⟨role.accept candidate, f⟩ (after txs)).storage = after txs
  paired : ∀ role, (after txs (.pending role)).isSome ↔ (after txs (.pendingTs role)).isSome
  moves : ∀ tx, tx.call.isInitialize = false → ∀ role,
    holder (invoke exec tx (after txs)).storage role ≠ holder (after txs) role →
      Takes txs tx (invoke exec tx (after txs)).storage role

/-- An acceptance installs its caller and empties the slot. -/
theorem accept_installs {f : Frame Address} {s s' : Storage} {role : Role} {candidate : Address}
    {r : Reply} {evs : List Event} (he : Effect f s (role.accept candidate) r s' evs) :
    holder s' role = some candidate ∧ s' (.pending role) = none ∧ s' (.pendingTs role) = none := by
  cases role <;> cases he <;> simp [holder, clearedPending]

theorem takes_of_effect {txs : List ContractTx} {tx : ContractTx} {r : Reply} {s' : Storage}
    {evs : List Event} (he : Effect tx.frame (after txs) tx.call r s' evs)
    (hinit : tx.call.isInitialize = false) {role : Role}
    (hmoved : holder s' role ≠ holder (after txs) role) : Takes txs tx s' role := by
  have htouched : tx.call.touches role.holder = true := by
    by_contra h
    have hframe := he.frame (by simpa using h)
    cases role <;> exact hmoved hframe
  obtain ⟨call, f⟩ := tx
  cases role <;> cases he <;>
    simp [Call.touches, Role.holder, History.isHistoryKey, isTelemetryKey] at htouched
  case admin.initialized => cases hinit
  case operator.initialized => cases hinit
  case admin.adminAccepted caller accepts =>
    exact .accepted (show Call.acceptAdmin caller = Role.admin.accept caller from rfl)
      ((accepts_iff_mayAccept ..).mp accepts)
      (by simp [holder, clearedPending])
  case admin.renounced =>
    refine .renounced rfl (by assumption) ?_
    simp only [holder, droppedPending]
    split <;> simp [clearedPending]
  case operator.operatorSet =>
    exact .appointed rfl (by assumption) (by simp [holder])
  case operator.operatorAccepted caller accepts =>
    exact .accepted (show Call.acceptOperator caller = Role.operator.accept caller from rfl)
      ((accepts_iff_mayAccept ..).mp accepts)
      (by simp [holder, clearedPending])

/-- On every state a run reaches, only the live nominee of a role can accept it, and the admin
and the operator change hands only so, by renouncing, or by an appointment. -/
theorem handoffs_follow_live_proposals (txs : List ContractTx) : Handoffs txs where
  accepts := by
    intro role candidate f
    exact (accept_succeeds_iff txs f role candidate).trans
      (accepts_iff_mayAccept txs f role candidate)
  installs := by
    intro role candidate f hmay
    have haccepts := (accepts_iff_mayAccept txs f role candidate).mpr hmay
    have hsucceeds := (accept_succeeds_iff txs f role candidate).mpr haccepts
    obtain ⟨r, s', evs, he, hi⟩ := effect_of_succeeds (current_after txs) hsucceeds
    rw [hi]
    exact accept_installs he
  refuses := by
    intro role candidate f hnot
    rcases invoke_effect (current_after txs) ⟨role.accept candidate, f⟩ with
      ⟨r, s', evs, he, hi⟩ | ⟨x, hi⟩
    · have haccepts : Accepts f (after txs) role candidate := by
        cases role <;> cases he <;> assumption
      exact absurd ((accepts_iff_mayAccept ..).mp haccepts) hnot
    · rw [hi]
  paired := by
    intro role
    have hpaired := (tracks_after txs role).paired
    rw [Option.isSome_iff_ne_none, Option.isSome_iff_ne_none, ne_eq, ne_eq, hpaired]
  moves := by
    intro tx hinit role hmoved
    rcases invoke_effect (current_after txs) tx with ⟨r, s', evs, he, hi⟩ | ⟨x, hi⟩
    · rw [hi] at hmoved ⊢
      exact takes_of_effect he hinit hmoved
    · rw [hi] at hmoved
      exact absurd rfl hmoved

end ApexChainx
