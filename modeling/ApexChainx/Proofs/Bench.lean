import ApexChainx.Contract.FuzzTargets
import ApexChainx.Proofs.Health

/-!
# The bench of the fuzz targets

What the fuzz targets share: a call that a target tries either has its effect or leaves the storage
alone, the deployment of a bench is healthy and stays in service, and every retained entry passes
the assertions on one entry.
-/

namespace ApexChainx.Fuzz

open Host Misc

/-- What `get_retention_limit` is documented to return: on the current version, the limit in
force. -/
def ReadsLimit (getRetentionLimit : Storage → Except SLAError Nat) : Prop :=
  ∀ s, checkVersion s = .ok () → getRetentionLimit s = .ok (retentionLimit s)

/-- A limit reader of that kind, with the version check of the other reads. -/
def sampleRetentionLimit (s : Storage) : Except SLAError Nat := do
  checkVersion s
  pure (retentionLimit s)

theorem readsLimit_sample : ReadsLimit sampleRetentionLimit := by
  intro s hs
  simp [sampleRetentionLimit, hs]

/-- A bench with six addresses. -/
def sampleBench : Bench := ⟨⟨1⟩, ⟨2⟩, fun i => ⟨3 + i.val⟩, 1000000, 1⟩

/-- The deployment of the bench is healthy, its admin is the admin of the bench and stands, and the
configuration is not frozen. -/
structure InService (b : Bench) (s : Storage) : Prop where
  healthy : Healthy s
  admin : s .admin = some b.admin
  standing : s .adminRenounced = none
  thawed : isConfigFrozen s = false

section Bench

variable {b : Bench} {now : Nat} {call : Call} {s : Storage} {Q : Bool → Storage → Prop}

theorem Bench.admin_signs : b.admin ∈ (b.tx now call).frame.auths :=
  List.mem_cons_self ..

theorem Bench.operator_signs : b.operator ∈ (b.tx now call).frame.auths :=
  List.mem_cons_of_mem _ (List.mem_cons_self ..)

/-- A call that a target tries has its effect, or is refused and leaves the storage alone. -/
theorem Bench.try_passes (hc : Current s)
    (hok : ∀ r s' evs, Effect (b.tx now call).frame s call r s' evs → Q true s')
    (hrefused : Q false s) : Driver.Passes (b.try now call) s Q := by
  have hsubmit : Driver.Passes (Driver.submit exec (b.tx now call)) s fun reply s' =>
      Q reply.isOk s' := by
    refine .submit ?_
    rcases invoke_effect hc (b.tx now call) with ⟨r, s', evs, he, hi⟩ | ⟨x, hi⟩
    · rw [hi]
      exact hok r s' evs he
    · rw [hi]
      exact hrefused
  exact hsubmit.bind fun reply s' hq => .pure hq

/-- The branch that follows a successful call starts where its effect leaves off, the other one
where the call was made. -/
theorem Bench.try_ite {α : Type} {m n : Target α} {T : α → Storage → Prop} (hc : Current s)
    (hok : ∀ r s' evs, Effect (b.tx now call).frame s call r s' evs → Driver.Passes m s' T)
    (hrefused : Driver.Passes n s T) :
    Driver.Passes (do let ok ← b.try now call; if ok then m else n) s T := by
  refine (Bench.try_passes (Q := fun ok s' => Driver.Passes (if ok then m else n) s' T) hc
    (fun r s' evs he => ?_) ?_).bind fun _ _ h => h
  · exact .ite (fun _ => hok r s' evs he) fun hnot => absurd rfl hnot
  · exact .ite (fun h => by cases h) fun _ => hrefused

/-- A call that goes through has its effect. -/
theorem Bench.try_succeeds (hc : Current s)
    (hreturns : ∃ r env', (exec call).Returns (b.tx now call).frame ⟨s, [], []⟩ r env')
    (hok : ∀ r s' evs, Effect (b.tx now call).frame s call r s' evs → Q true s') :
    Driver.Passes (b.try now call) s Q := by
  obtain ⟨r, env', hreturns⟩ := hreturns
  have hsubmit : Driver.Passes (Driver.submit exec (b.tx now call)) s fun reply s' =>
      Q reply.isOk s' := by
    refine .submit ?_
    rw [show invoke exec (b.tx now call) s = ⟨env'.storage, env'.events, .ok r⟩ from
      invoke_of_returns hreturns]
    exact hok r _ _ (returns_effect hc hreturns)
  exact hsubmit.bind fun reply s' hq => .pure hq

theorem returns_exec {c : Call} {m : Contract Unit} {f : Frame Address}
    (hexec : exec c = replyUnit m) (h : ∃ env', m.Returns f ⟨s, [], []⟩ () env') :
    ∃ r env', (exec c).Returns f ⟨s, [], []⟩ r env' := by
  obtain ⟨env', hm⟩ := h
  exact ⟨.unit, env', hexec ▸ returns_replyUnit.mpr ⟨rfl, hm⟩⟩

/-- The deployment that every target starts with. -/
theorem Bench.initialize_passes :
    Driver.Passes b.initialize Store.empty fun _ s' =>
      s' = initializedStorage Store.empty b.admin b.operator := by
  have hok : Driver.Passes (b.try b.timestamp (.initializeContract b.admin b.operator)) Store.empty
      fun ok s' => ok = true ∧ s' = initializedStorage Store.empty b.admin b.operator := by
    refine Bench.try_succeeds current_empty (returns_exec rfl ?_) ?_
    · exact initializeContract_returns rfl Bench.admin_signs Bench.operator_signs
    · intro r s' evs he
      cases he
      exact ⟨rfl, rfl⟩
  refine hok.bind ?_
  rintro _ _ ⟨rfl, rfl⟩
  exact (Driver.Yields.assert rfl).passes rfl

theorem inService_initialized :
    InService b (initializedStorage Store.empty b.admin b.operator) where
  healthy := healthy_initialized b.admin b.operator
  admin := by simp [initializedStorage]
  standing := by simp [initializedStorage]
  thawed := by simp [isConfigFrozen, initializedStorage]

/-- A call that writes neither the roles nor the freeze keeps the deployment in service. -/
theorem InService.effect {r : Reply} {s' : Storage} {evs : List Event} {f : Frame Address}
    (hs : InService b s) (he : Effect f s call r s' evs) (hadmin : call.touches .admin = false)
    (hrenounced : call.touches .adminRenounced = false) (hfreeze : call.touches .freeze = false) :
    InService b s' where
  healthy := he.healthy hs.healthy
  admin := (he.frame hadmin).trans hs.admin
  standing := (he.frame hrenounced).trans hs.standing
  thawed := by
    have hfrozen := hs.thawed
    unfold isConfigFrozen at hfrozen ⊢
    rwa [he.frame hfreeze]

/-- The admin of a deployment in service is accepted as such. -/
theorem InService.byAdmin (hs : InService b s) :
    ByAdmin (b.tx now call).frame s b.admin :=
  ⟨hs.healthy.version, Bench.admin_signs, hs.standing, hs.admin⟩

end Bench

/-! ## One entry -/

/-- A met decision is rated. -/
theorem computeResult_rating {outage_id : Symbol} {mttr hash now : Nat} {cfg : SLAConfig}
    {result : SLAResult} (h : computeResult outage_id mttr cfg hash now = .ok result)
    (hmet : result.status = .met) :
    result.rating = .top ∨ result.rating = .excel ∨ result.rating = .good := by
  unfold computeResult at h
  split at h
  · simp only [computePenalty, bind_eq_ok, pure_eq_ok] at h
    obtain ⟨_, -, _, -, _, -, rfl⟩ := h
    cases hmet
  · simp only [computeReward, bind_eq_ok, pure_eq_ok] at h
    obtain ⟨_, -, _, -, rfl⟩ := h
    unfold rewardTier
    grind

section Entry

variable {entry : SLAResult} {s : Storage}

theorem checks_entryWellFormed (h : Genuine entry) :
    Driver.Checks (assertEntryWellFormed entry) s := by
  obtain ⟨cfg, -, -, hcomputed⟩ := h
  have hrating := computeResult_rating hcomputed
  rcases computeResult_signDisciplined hcomputed with
    ⟨hstatus, hpayment, hamount⟩ | ⟨hstatus, hpayment, hpoor, hamount⟩
  · refine .bind (.assert (.inl hstatus)) (.ite (fun _ => ?_) fun hnot => absurd hstatus hnot)
    exact .bind (.assert hpayment) (.bind (.assert hamount) (.assert (hrating hstatus)))
  · have hviolated : entry.status ≠ .met := by
      rw [hstatus]
      decide
    refine .bind (.assert (.inr hstatus)) (.ite (fun hmet => absurd hmet hviolated) fun _ => ?_)
    exact .bind (.assert hpayment) (.bind (.assert hamount) (.assert hpoor))

/-- The threshold of an entry is that of a configuration within the bounds. -/
theorem threshold_inRange (h : Genuine entry) :
    1 ≤ entry.threshold_minutes ∧ entry.threshold_minutes ≤ 1440 := by
  obtain ⟨cfg, bounds, -, hcomputed⟩ := h
  rw [(computeResult_inputs hcomputed).2.2.1]
  exact bounds.threshold

theorem checks_entriesWellFormed (hs : Healthy s) : Driver.Checks assertEntriesWellFormed s :=
  .bind (.read hs.getHistory_ok)
    (.forM fun _ hentry => checks_entryWellFormed (hs.entry_genuine hentry))

end Entry

/-- A submission that a target tries leaves a healthy contract with a history within its limit. -/
theorem calculateWithinLimit_passes {getRetentionLimit : Storage → Except SLAError Nat}
    (hlimit : ReadsLimit getRetentionLimit) {b : Bench} {I : Storage → Prop} {s : Storage}
    (hhealthy : ∀ s, I s → Healthy s) (now : Nat) (outage severity : Symbol) (mttr : Nat)
    (hstep : ∀ r s' evs, Effect (b.tx now (.calculateSla b.operator outage severity mttr)).frame s
      (.calculateSla b.operator outage severity mttr) r s' evs → I s') (hs : I s) :
    Driver.Passes (calculateWithinLimit getRetentionLimit b now outage severity mttr) s
      fun _ s' => I s' := by
  refine Bench.try_ite (hhealthy s hs).regular.current (fun r s' evs he => ?_) (.pure hs)
  have hs' : Healthy s' := hhealthy s' (hstep r s' evs he)
  refine (Driver.Yields.read (hlimit s' hs'.checkVersion_ok)).bind_passes ?_
  refine (Driver.Yields.read hs'.getHistory_ok).bind_passes ?_
  exact (Driver.Yields.assert hs'.length_le_limit).passes (hstep r s' evs he)

end ApexChainx.Fuzz
