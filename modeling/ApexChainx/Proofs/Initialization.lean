import ApexChainx.Proofs.Runs

/-!
# Initialization and renouncing

`initialize` is guarded by the presence of the admin alone, and `renounce_admin` removes the
admin. So a contract whose admin was renounced can be initialized again, by anyone: that is the
only way `initialize` succeeds twice, and the only way renouncing is not final
(`initialize_once_iff`).
-/

namespace ApexChainx

open Host Misc

/-- A successful `renounce_admin`. -/
def renounces (st : ContractStep) : Bool :=
  match st.tx.call with
  | .renounceAdmin _ => succeeds st
  | _ => false

/-- An `initialize` that both its addresses authorized, on a contract whose admin was
renounced. -/
def Revives (st : ContractStep) : Prop :=
  ∃ admin operator, st.tx.call = .initializeContract admin operator ∧
    admin ∈ st.tx.frame.auths ∧ operator ∈ st.tx.frame.auths ∧
    (st.pre .adminRenounced).isSome

/-- What a call may still do once the admin is renounced: the roles, the canonical
configuration and the pause flag stay, and the statistics and the history counters move only as
a recorded decision moves them. -/
structure Sealed (s s' : Storage) : Prop where
  admin : s' .admin = s .admin
  operator : s' .operator = s .operator
  config : s' .config = s .config
  paused : s' .paused = s .paused
  counters :
    (s' .stats = s .stats ∧ s' .histHead = s .histHead ∧ s' .histTail = s .histTail) ∨
      ∃ result, s' .stats = some (statsAfter (statsOf s) result).1 ∧
        History.shards s' =
          (History.shards s).record SLAResult.outage_id 32 (retentionLimit s) result

/-- `initialize` succeeds at most once, and renouncing is final. -/
structure OnceAndFinal (txs : List ContractTx) : Prop where
  once : initializations txs ≤ 1
  final : ∀ past st rest, steps txs = past ++ st :: rest → (∃ p ∈ past, renounces p = true) →
    Sealed st.pre (st.post exec)

/-! ## The standing of the admin -/

/-- The standing of the admin after the calls of `past`, none of which revived the contract. -/
structure Standing (past : List ContractStep) (s : Storage) : Prop where
  fresh : past.countP initializes = 0 → s = Store.empty
  once : past.countP initializes ≤ 1
  held : past.countP initializes = 1 → s .adminRenounced = none → (s .admin).isSome
  renounced : (s .adminRenounced).isSome → s .admin = none ∧ ∀ role, s (.pending role) = none
  marked : (∃ p ∈ past, renounces p = true) → (s .adminRenounced).isSome

section Steps

variable {f : Frame Address} {s s' : Storage} {c : Call} {r : Reply} {evs : List Event}

/-- What renouncing leaves of the admin and of the proposals. -/
theorem renounced_storage (s : Storage) :
    let s' := droppedPending (clearedPending ((s.set .adminRenounced true).remove .admin) .admin)
    s' .adminRenounced = some true ∧ s' .admin = none ∧ ∀ role, s' (.pending role) = none := by
  have hpending : ∀ t : Storage, t (.pending .operator) = none ∨
      (t (.pending .operator)).isSome := fun t => by cases t (.pending .operator) <;> simp
  refine ⟨?_, ?_, ?_⟩
  · unfold droppedPending
    split <;> simp [clearedPending]
  · unfold droppedPending
    split <;> simp [clearedPending]
  · intro role
    unfold droppedPending
    rcases hpending s with hnone | hsome
    · cases role <;> simp [clearedPending, hnone]
    · cases role <;> simp [clearedPending, hsome]

/-- Under the mark of a renounced admin, with no proposal open, only a calculation goes
through. -/
theorem Effect.under_mark (he : Effect f s c r s' evs) (hinit : c.isInitialize = false)
    (hmark : (s .adminRenounced).isSome) (hadmin : s .admin = none)
    (hpending : ∀ role, s (.pending role) = none) :
    ∃ caller outage_id severity mttr, c = .calculateSla caller outage_id severity mttr := by
  have no_admin : ∀ caller, ¬ ByAdmin f s caller := fun _ h => by
    simp [h.standing] at hmark
  have no_pending : ∀ role caller, ¬ Accepts f s role caller := fun role _ h => by
    have hp := h.pending
    rw [hpending role] at hp
    cases hp
  cases he
  case initialized => simp [Call.isInitialize] at hinit
  case migrateCurrent admin _ => rw [hadmin] at admin; cases admin
  case adminAccepted accepts => exact (no_pending _ _ accepts).elim
  case operatorAccepted accepts => exact (no_pending _ _ accepts).elim
  case replayed => exact ⟨_, _, _, _, rfl⟩
  case recorded => exact ⟨_, _, _, _, rfl⟩
  all_goals exact (no_admin _ (by assumption)).elim

/-- A call other than `initialize` and `renounce_admin` keeps the mark, and keeps an admin. -/
theorem Effect.standing (he : Effect f s c r s' evs) (hinit : c.isInitialize = false)
    (hrenounce : ∀ caller, c ≠ .renounceAdmin caller) :
    s' .adminRenounced = s .adminRenounced ∧ ((s .admin).isSome → (s' .admin).isSome) := by
  have hmark : c.touches .adminRenounced = false := by
    cases c <;> simp_all [Call.touches, Call.isInitialize, History.isHistoryKey, isTelemetryKey]
  refine ⟨he.frame hmark, ?_⟩
  intro hadmin
  by_cases htouched : c.touches .admin = true
  · cases he <;> simp_all [Call.touches, History.isHistoryKey, isTelemetryKey, Call.isInitialize]
    simp [clearedPending]
  · rw [he.frame (by simpa using htouched)]
    exact hadmin

end Steps

theorem renounces_of_ok {s : Storage} {tx : ContractTx} {o : Outcome StorageKey.Val Event SLAError
    Reply} {r : Reply} (hi : invoke exec tx s = o) (hr : o.reply = .ok r) :
    renounces ⟨s, tx⟩ = true ↔ ∃ caller, tx.call = .renounceAdmin caller := by
  have hsucceeds : succeeds ⟨s, tx⟩ = true := by
    simp only [succeeds, Step.outcome, hi, hr]
    rfl
  unfold renounces
  split
  · rename_i caller hcall
    constructor
    · intro _
      exact ⟨caller, hcall⟩
    · intro _
      exact hsucceeds
  · rename_i hcall
    constructor
    · intro h
      cases h
    · rintro ⟨caller, h⟩
      exact (hcall caller h).elim

section Lineage

variable {past : List ContractStep} {s s' : Storage} {tx : ContractTx} {r : Reply}
  {evs : List Event}

/-- A first `initialize` installs an admin. -/
theorem Standing.initialize (hs : Standing past s) (he : Effect tx.frame s tx.call r s' evs)
    (hi : invoke exec tx s = ⟨s', evs, .ok r⟩) (hinit : tx.call.isInitialize = true)
    (hfresh : ¬ Revives ⟨s, tx⟩) : Standing (past ++ [⟨s, tx⟩]) s' := by
  obtain ⟨admin, operator, hcall, absent, signed, consented, rfl, -⟩ := he.of_initialize hinit
  have unmarked : s .adminRenounced = none := by
    rw [← Option.not_isSome_iff_eq_none]
    exact fun hmark => hfresh ⟨admin, operator, hcall, signed, consented, hmark⟩
  have hzero : past.countP initializes = 0 := by
    have honce := hs.once
    have hheld := fun hone => hs.held hone unmarked
    rw [absent] at hheld
    by_contra hne
    exact absurd (hheld (by omega)) (by simp)
  have hmark : initializedStorage s admin operator .adminRenounced = none := by
    simp [initializedStorage, unmarked]
  have hcount : List.countP initializes (past ++ [⟨s, tx⟩]) = 1 := by
    simp [hzero, initializes_of_ok hi rfl, hinit]
  refine ⟨?_, by omega, ?_, ?_, ?_⟩
  · intro h
    omega
  · intro _ _
    simp [initializedStorage]
  · intro h
    simp [hmark] at h
  · rintro ⟨p, hp, hrenounces⟩
    rcases List.mem_append.mp hp with hp | hp
    · have := hs.marked ⟨p, hp, hrenounces⟩
      simp [unmarked] at this
    · obtain rfl := List.mem_singleton.mp hp
      obtain ⟨caller, h⟩ := (renounces_of_ok hi rfl).mp hrenounces
      simp [hcall] at h

/-- Renouncing marks the contract and leaves no admin and no proposal. -/
theorem Standing.renounce (hs : Standing past s) (he : Effect tx.frame s tx.call r s' evs)
    (hi : invoke exec tx s = ⟨s', evs, .ok r⟩) {caller : Address}
    (hcall : tx.call = .renounceAdmin caller) : Standing (past ++ [⟨s, tx⟩]) s' := by
  have hcount : List.countP initializes (past ++ [⟨s, tx⟩]) = past.countP initializes := by
    simp [initializes_of_ok hi rfl, hcall, Call.isInitialize]
  rw [hcall] at he
  obtain ⟨hmark, hadmin, hpending⟩ : s' .adminRenounced = some true ∧ s' .admin = none ∧
      ∀ role, s' (.pending role) = none := by
    cases he
    exact renounced_storage s
  refine ⟨?_, hcount ▸ hs.once, ?_, ?_, ?_⟩
  · intro h
    obtain rfl := hs.fresh (hcount ▸ h)
    obtain ⟨_, _, h, -⟩ := effect_of_empty he
    cases h
  · intro _ h
    simp [hmark] at h
  · intro _
    exact ⟨hadmin, hpending⟩
  · intro _
    simp [hmark]

/-- The other calls keep the standing. -/
theorem Standing.other (hs : Standing past s) (he : Effect tx.frame s tx.call r s' evs)
    (hi : invoke exec tx s = ⟨s', evs, .ok r⟩) (hinit : tx.call.isInitialize = false)
    (hrenounce : ∀ caller, tx.call ≠ .renounceAdmin caller) :
    Standing (past ++ [⟨s, tx⟩]) s' := by
  have hcount : List.countP initializes (past ++ [⟨s, tx⟩]) = past.countP initializes := by
    simp [initializes_of_ok hi rfl, hinit]
  obtain ⟨hmark, hadmin⟩ := he.standing hinit hrenounce
  refine ⟨?_, hcount ▸ hs.once, ?_, ?_, ?_⟩
  · intro h
    obtain rfl := hs.fresh (hcount ▸ h)
    obtain ⟨_, _, hcall, -⟩ := effect_of_empty he
    simp [hcall, Call.isInitialize] at hinit
  · intro hone h
    exact hadmin (hs.held (hcount ▸ hone) (hmark ▸ h))
  · intro h
    rw [hmark] at h
    obtain ⟨hnone, hpending⟩ := hs.renounced h
    obtain ⟨caller, outage_id, severity, mttr, hcall⟩ := he.under_mark hinit h hnone hpending
    rw [hcall] at he
    refine ⟨by rw [he.frame rfl, hnone], ?_⟩
    intro role
    rw [he.frame rfl, hpending role]
  · rintro ⟨p, hp, hrenounces⟩
    rw [hmark]
    rcases List.mem_append.mp hp with hp | hp
    · exact hs.marked ⟨p, hp, hrenounces⟩
    · obtain rfl := List.mem_singleton.mp hp
      obtain ⟨caller, h⟩ := (renounces_of_ok hi rfl).mp hrenounces
      exact absurd h (hrenounce caller)

theorem Standing.step (hs : Standing past s) (he : Effect tx.frame s tx.call r s' evs)
    (hi : invoke exec tx s = ⟨s', evs, .ok r⟩) (hfresh : ¬ Revives ⟨s, tx⟩) :
    Standing (past ++ [⟨s, tx⟩]) s' := by
  cases hinit : tx.call.isInitialize with
  | true => exact hs.initialize he hi hinit hfresh
  | false =>
    by_cases hrenounce : ∃ caller, tx.call = .renounceAdmin caller
    · obtain ⟨caller, hcall⟩ := hrenounce
      exact hs.renounce he hi hcall
    · exact hs.other he hi hinit fun caller h => hrenounce ⟨caller, h⟩

theorem Standing.refused (hs : Standing past s) {x : Fault SLAError}
    (hi : invoke exec tx s = ⟨s, [], .error x⟩) : Standing (past ++ [⟨s, tx⟩]) s := by
  have hcount : List.countP initializes (past ++ [⟨s, tx⟩]) = past.countP initializes := by
    simp [not_initializes_of_refused hi]
  refine ⟨?_, hcount ▸ hs.once, ?_, hs.renounced, ?_⟩
  · intro h
    exact hs.fresh (hcount ▸ h)
  · intro h
    exact hs.held (hcount ▸ h)
  · rintro ⟨p, hp, hrenounces⟩
    rcases List.mem_append.mp hp with hp | hp
    · exact hs.marked ⟨p, hp, hrenounces⟩
    · obtain rfl := List.mem_singleton.mp hp
      have hfails : succeeds ⟨s, tx⟩ = false := not_succeeds_of_refused hi
      unfold renounces at hrenounces
      split at hrenounces
      · rw [hfails] at hrenounces
        cases hrenounces
      · cases hrenounces

/-- `initialize` checks only that no admin stands and that both addresses authorized it. -/
theorem initialize_succeeds {s : Storage} {tx : ContractTx} {admin operator : Address}
    (hcall : tx.call = .initializeContract admin operator) (absent : s .admin = none)
    (signed : admin ∈ tx.frame.auths) (consented : operator ∈ tx.frame.auths) :
    initializes ⟨s, tx⟩ = true := by
  have hreturns : ∃ env', (exec tx.call).Returns tx.frame ⟨s, [], []⟩ .unit env' := by
    simp only [hcall, exec, replyUnit, Prog.returns_bind]
    simp [initializeContract, absent, signed, consented]
    by_cases h : admin = operator <;> simp [h]
  obtain ⟨env', hr⟩ := hreturns
  rw [initializes_of_ok (invoke_of_returns hr) rfl, hcall]
  rfl

/-- An authorized `initialize` of a renounced contract succeeds a second time. -/
theorem Standing.revived (hs : Standing past s) (h : Revives ⟨s, tx⟩) :
    past.countP initializes = 1 ∧ initializes ⟨s, tx⟩ = true := by
  obtain ⟨admin, operator, hcall, signed, consented, hmark⟩ := h
  refine ⟨?_, initialize_succeeds hcall (hs.renounced hmark).1 signed consented⟩
  have honce := hs.once
  by_contra hne
  obtain rfl := hs.fresh (by omega)
  simp at hmark

end Lineage

/-- Either no call so far revived the contract, or `initialize` succeeded twice. -/
theorem standing_after (txs : List ContractTx) :
    ((∀ st ∈ steps txs, ¬ Revives st) ∧ Standing (steps txs) (after txs)) ∨
      ((∃ st ∈ steps txs, Revives st) ∧ 2 ≤ initializations txs) := by
  refine effect_induction (P := fun past s => ((∀ st ∈ past, ¬ Revives st) ∧ Standing past s) ∨
    ((∃ st ∈ past, Revives st) ∧ 2 ≤ past.countP initializes)) ?_ ?_ ?_ txs
  · exact .inl ⟨by simp, ⟨fun _ => rfl, by simp, by simp, by simp, by simp⟩⟩
  · rintro past s tx r s' evs - (⟨hnone, hs⟩ | ⟨⟨st, hst, hrevives⟩, htwo⟩) he hi
    · by_cases hrevives : Revives ⟨s, tx⟩
      · obtain ⟨hone, hinit⟩ := hs.revived hrevives
        exact .inr ⟨⟨_, by simp, hrevives⟩, by simp [hone, hinit]⟩
      · refine .inl ⟨?_, hs.step he hi hrevives⟩
        intro st hst
        rcases List.mem_append.mp hst with hst | hst
        · exact hnone st hst
        · exact List.mem_singleton.mp hst ▸ hrevives
    · exact .inr ⟨⟨st, List.mem_append_left _ hst, hrevives⟩, by
        rw [List.countP_append]; omega⟩
  · rintro past s tx x (⟨hnone, hs⟩ | ⟨⟨st, hst, hrevives⟩, htwo⟩) hi
    · have hrevives : ¬ Revives ⟨s, tx⟩ := fun h => by
        have := (hs.revived h).2
        rw [not_initializes_of_refused hi] at this
        cases this
      refine .inl ⟨?_, hs.refused hi⟩
      intro st hst
      rcases List.mem_append.mp hst with hst | hst
      · exact hnone st hst
      · exact List.mem_singleton.mp hst ▸ hrevives
    · exact .inr ⟨⟨st, List.mem_append_left _ hst, hrevives⟩, by
        rw [List.countP_append]; omega⟩

/-- Once the admin is renounced, a call that does not revive the contract leaves it sealed. -/
theorem Standing.sealed {past : List ContractStep} {s : Storage} (hs : Standing past s)
    (hc : Current s) (hrenounced : ∃ p ∈ past, renounces p = true) {tx : ContractTx}
    (hfresh : ¬ Revives ⟨s, tx⟩) : Sealed s ((⟨s, tx⟩ : ContractStep).post exec) := by
  have hmark := hs.marked hrenounced
  obtain ⟨hadmin, hpending⟩ := hs.renounced hmark
  rcases invoke_effect hc tx with ⟨r, s', evs, he, hi⟩ | ⟨x, hi⟩
  · have hpost := post_of_invoke hi
    have hinit : tx.call.isInitialize = false := by
      by_contra h
      obtain ⟨admin, operator, hcall, -, signed, consented, -⟩ :=
        he.of_initialize (by simpa using h)
      exact hfresh ⟨admin, operator, hcall, signed, consented, hmark⟩
    obtain ⟨caller, outage_id, severity, mttr, hcall⟩ := he.under_mark hinit hmark hadmin hpending
    rw [hpost]
    rw [hcall] at he
    refine ⟨he.frame rfl, he.frame rfl, he.frame rfl, he.frame rfl, ?_⟩
    cases he with
    | replayed => exact .inl ⟨rfl, rfl, rfl⟩
    | recorded _ _ _ _ _ change => exact .inr ⟨_, change.stats, change.log⟩
  · have hpost := post_of_invoke hi
    rw [hpost]
    exact ⟨rfl, rfl, rfl, rfl, .inl ⟨rfl, rfl, rfl⟩⟩

/-- `initialize` succeeds once and renouncing is final in exactly the runs in which no
authorized `initialize` meets the mark of a renounced admin. -/
theorem initialize_once_iff (txs : List ContractTx) :
    OnceAndFinal txs ↔ ∀ st ∈ steps txs, ¬ Revives st := by
  constructor
  · intro h
    rcases standing_after txs with ⟨hnone, -⟩ | ⟨-, htwo⟩
    · exact hnone
    · have := h.once
      omega
  · intro hnone
    rcases standing_after txs with ⟨-, hs⟩ | ⟨⟨st, hst, hrevives⟩, -⟩
    · refine ⟨hs.once, ?_⟩
      intro past st rest hsplit hrenounced
      obtain ⟨before, tx, later, rfl, rfl, rfl⟩ := trace_split hsplit
      have hfresh : ¬ Revives ⟨after before, tx⟩ := hnone _ (by rw [hsplit]; simp)
      rcases standing_after before with ⟨-, hs⟩ | ⟨⟨st, hst, hrevives⟩, -⟩
      · exact hs.sealed (current_after before) hrenounced hfresh
      · exact absurd hrevives (hnone st (by rw [hsplit]; exact List.mem_append_left _ hst))
    · exact absurd hrevives (hnone st hst)

/-- A run in which the admin renounces and a stranger initializes the contract again. -/
def revivedRun : List ContractTx :=
  [⟨.initializeContract ⟨1⟩ ⟨2⟩, ⟨[⟨1⟩, ⟨2⟩], 1, 1⟩⟩, ⟨.renounceAdmin ⟨1⟩, ⟨[⟨1⟩], 2, 2⟩⟩,
    ⟨.initializeContract ⟨3⟩ ⟨4⟩, ⟨[⟨3⟩, ⟨4⟩], 3, 3⟩⟩]

theorem revivedRun_not_once : ¬ OnceAndFinal revivedRun := by
  intro h
  exact absurd h.once (by decide)

end ApexChainx
