import ApexChainx.Proofs.Bench
import ApexChainx.Proofs.CustomTiers
import ApexChainx.Proofs.Handoffs
import ApexChainx.Proofs.Pagination

/-!
# The fuzz targets never panic

Whatever bytes a stateful fuzz target is given, all of its assertions hold and all of its reads are
answered. An operation keeps what the target relies on, so the loop does; the assertions at the end
follow from it.
-/

namespace ApexChainx.Fuzz

open Host Misc

/-! ## `history_state_machine` -/

section History

variable {getRetentionLimit : Storage → Except SLAError Nat} {b : Bench} {s : Storage}

/-- The number of entries fits the `u32` it is cast to. -/
theorem wrap_length (hs : Healthy s) :
    wrap 32 (History.readAllEntries s).length = (History.readAllEntries s).length := by
  have hlen := hs.length_le
  simp only [wrap]
  omega

/-- The two page reads agree with each other and with the oracle of the target. -/
theorem checks_paginationConsistent (hs : Healthy s) (offset limit : Nat) :
    Driver.Checks (assertPaginationConsistent offset limit) s := by
  have hlen := hs.length_le
  have hmax : (History.readAllEntries s).length ≤ unsignedMax 32 := hlen.trans (by decide)
  have hpage := length_page (History.readAllEntries s) offset (min limit maxPageSize)
  have hwrap : wrap 32 (page (History.readAllEntries s) offset (min limit maxPageSize)).length =
      (page (History.readAllEntries s) offset (min limit maxPageSize)).length :=
    wrap_of_lt (by omega)
  refine .bind (.read hs.getHistory_ok) ?_
  dsimp only
  rw [wrap_length hs]
  refine .bind (.read (getHistoryPage_eq hs.regular.sound hs.checkVersion_ok offset limit)) ?_
  refine .bind
    (.read (getHistoryPageWithMeta_eq hs.regular.sound hs.checkVersion_ok offset limit)) ?_
  dsimp only
  rw [hwrap]
  refine .bind (.forM ?_) (.bind (.assert rfl) (.bind (.assert rfl) (.bind (.assert ?_)
    (.bind (.assert ?_) (.ite (fun hempty => .assert ?_) fun _ => .pure)))))
  · rintro ⟨item, i⟩ hitem
    exact .bind (.unwrap (List.mem_zipIdx_iff_getElem?.mp hitem)) (.assert rfl)
  · rw [hpage]
    split <;> omega
  · rw [Spec.expectedHasMore_eq hmax, saturated_end hmax, ← Bool.decide_and]
    refine decide_eq_decide.mpr ?_
    simp only [maxPageSize]
    omega
  · rw [hpage]
    omega

/-- A page that starts at an entry matches the history from that entry on. -/
theorem matchPage_yields {history page : List SLAResult} {idx : Nat}
    (h : page <+: history.drop idx) :
    Driver.Yields (matchPage history idx page) s (idx + page.length) := by
  induction page generalizing idx with
  | nil => exact .pure
  | cons item page ih =>
    obtain ⟨rest, hrest⟩ := h
    have hget : history[idx]? = some item := by
      have hfirst := congrArg (·[0]?) hrest
      simpa using hfirst.symm
    have htail : page <+: history.drop (idx + 1) := by
      refine ⟨rest, ?_⟩
      have hdrop := congrArg List.tail hrest
      simpa [List.tail_drop] using hdrop
    rw [List.length_cons, Nat.add_comm page.length 1, ← Nat.add_assoc]
    exact .bind (.bind (.unwrap hget) (.bind (.assert rfl) .pure)) (ih htail)

/-- The page walk counts every entry. -/
theorem walkPages_yields (hs : Healthy s) {offset : Nat}
    (hoffset : offset ≤ (History.readAllEntries s).length) :
    Driver.Yields (walkPages (History.readAllEntries s) offset offset) s
      (History.readAllEntries s).length := by
  have hlen := hs.length_le
  induction hn : (History.readAllEntries s).length - offset using Nat.strong_induction_on
    generalizing offset with
  | _ n ih =>
    have hstop : saturatingAdd 32 offset 64 = offset + 64 := by
      simp only [saturatingAdd, unsignedMax]
      omega
    have hpage : (page (History.readAllEntries s) offset (min 64 maxPageSize)).length =
        min 64 ((History.readAllEntries s).length - offset) := length_page ..
    rw [walkPages, wrap_length hs, hstop]
    refine .bind (.read (getHistoryPage_eq hs.regular.sound hs.checkVersion_ok offset 64)) ?_
    refine .bind (matchPage_yields (List.take_prefix _ _)) ?_
    rw [hpage]
    refine .ite (fun hlast => ?_) fun hmore => ?_
    · have hidx : offset + min 64 ((History.readAllEntries s).length - offset) =
          (History.readAllEntries s).length := by omega
      rw [hidx]
      exact .pure
    · have hidx : offset + min 64 ((History.readAllEntries s).length - offset) = offset + 64 := by
        omega
      rw [hidx]
      exact ih _ (by omega) (by omega) rfl

theorem historyTerminalChecks_yields (hs : Healthy s) : Driver.Checks historyTerminalChecks s := by
  refine .bind (checks_entriesWellFormed hs) (.bind (.read hs.getHistory_ok) ?_)
  dsimp only
  rw [wrap_length hs]
  refine .bind (walkPages_yields hs (Nat.zero_le _)) (.bind (.assert rfl) ?_)
  exact .bind (checks_paginationConsistent hs ..) (.bind (checks_paginationConsistent hs ..)
    (.bind (checks_paginationConsistent hs ..) (.bind (checks_paginationConsistent hs ..)
      (checks_paginationConsistent hs ..))))

/-- A prune leaves at most as many entries as it keeps. -/
theorem length_le_keep {f : Frame Address} {caller : Address} {keep : Nat} {r : Reply}
    {s' : Storage} {evs : List Event} (he : Effect f s (.pruneHistory caller keep) r s' evs)
    (hs' : Healthy s') : (History.readAllEntries s').length ≤ keep := by
  cases he with
  | pruned by_admin change historyLen =>
    rw [length_readAllEntries hs'.regular.sound, ← History.shards_len, change.log,
      ShardedLog.len_dropTo]
    exact Nat.min_le_right ..

/-- A retention limit that is set is the one in force. -/
theorem retentionLimit_eq {f : Frame Address} {caller : Address} {limit : Nat} {r : Reply}
    {s' : Storage} {evs : List Event}
    (he : Effect f s (.setRetentionLimit caller limit) r s' evs) : retentionLimit s' = limit := by
  cases he with
  | retentionSet by_admin thawed inRange change historyLen =>
    simp [retentionLimit, change.other .retentionLimit rfl]

/-- The limits of the targets are in the range that the contract accepts. -/
theorem retention_inRange (raw : Nat) : 0 < retention raw ∧ retention raw ≤ maxHistorySize := by
  simp only [retention, maxHistorySize]
  omega

/-- An operation of the target passes its assertions and keeps the deployment in service. -/
theorem HistoryOp.run_passes (hlimit : ReadsLimit getRetentionLimit) (now : Nat) (op : HistoryOp)
    (hs : InService b s) :
    Driver.Passes (op.run getRetentionLimit b now) s fun _ s' => InService b s' := by
  have hcurrent := hs.healthy.regular.current
  cases op with
  | calculate sev out m =>
    refine calculateWithinLimit_passes hlimit (fun _ h => h.healthy) now _ _ _ ?_ hs
    exact fun r s' evs he => hs.effect he rfl rfl rfl
  | pruneKeep raw =>
    refine Bench.try_ite hcurrent (fun r s' evs he => ?_) (.pure hs)
    have hs' : InService b s' := hs.effect he rfl rfl rfl
    refine (Driver.Yields.read hs'.healthy.getHistory_ok).bind_passes ?_
    exact (Driver.Yields.assert (length_le_keep he hs'.healthy)).passes hs'
  | pruneAge raw =>
    refine (Bench.try_passes (Q := fun _ s' => InService b s') hcurrent
      (fun r s' evs he => hs.effect he rfl rfl rfl) hs).bind ?_
    exact fun _ s' hs' => (checks_entriesWellFormed hs'.healthy).passes hs'
  | setRetention raw =>
    have by_admin :
        ByAdmin (b.tx now (.setRetentionLimit b.admin (retention raw))).frame s b.admin :=
      hs.byAdmin
    have hreturns := setRetentionLimit_returns by_admin hs.thawed (retention_inRange raw)
    refine Driver.Passes.bind (Q := fun _ s' => InService b s' ∧
      retentionLimit s' = retention raw) ?_ ?_
    · refine Bench.try_succeeds hcurrent (returns_exec rfl hreturns) fun r s' evs he => ?_
      exact ⟨hs.effect he rfl rfl rfl, retentionLimit_eq he⟩
    · rintro _ s' ⟨hs', hforce⟩
      refine (Driver.Yields.read (hlimit s' hs'.healthy.checkVersion_ok)).bind_passes ?_
      exact (Driver.Yields.assert (.inl hforce)).passes hs'
  | readPage off lim => exact (checks_paginationConsistent hs.healthy off lim).passes hs

/-- Whatever its input, `history_state_machine` gets to its end: the reads are answered, the
assertions after every operation and at the end hold, and the deployment is still in service. -/
theorem historyStateMachine_passes (hlimit : ReadsLimit getRetentionLimit) (b : Bench)
    (data : List UInt8) :
    Driver.Passes (historyStateMachine getRetentionLimit b data) Store.empty
      fun _ s => InService b s := by
  refine b.initialize_passes.bind fun _ s hinit => ?_
  have hs : InService b s := hinit ▸ inService_initialized
  refine Driver.Passes.bind (Q := fun _ s => InService b s) ?_ ?_
  · refine .drive (fun ops now op s hs => ?_) data 0 hs
    refine (op.run_passes hlimit (saturatingAdd 64 now (1 + ops % 120)) hs).bind ?_
    exact fun _ s' hs' => .pure hs'
  · exact fun _ s' hs' => (historyTerminalChecks_yields hs'.healthy).passes hs'

/-- A calculation, and a prune that keeps nothing. -/
theorem historyStateMachine_passes_sample :
    Driver.Passes (historyStateMachine sampleRetentionLimit sampleBench
        [0, 0, 0, 0, 0, 1, 0, 0, 0, 30, 0, 0, 0, 1, 0, 0, 0, 0])
      Store.empty fun _ s => InService sampleBench s :=
  historyStateMachine_passes readsLimit_sample sampleBench _

end History

/-! ## `governance_sequences` -/

section Governance

variable {b : Bench} {renounced : Bool} {s s' : Storage} {role : Role} {f : Frame Address}
  {caller nominee : Address} {r : Reply} {evs : List Event}

/-- What the target relies on: the version is current, and nothing is pending once the admin
renounced. -/
structure Governed (renounced : Bool) (s : Storage) : Prop where
  version : s .storageVersion = some storageVersion
  settled : renounced = true → ∀ role, s (.pending role) = none

theorem Governed.current (hs : Governed renounced s) : Current s := fun _ _ => hs.version

theorem Governed.checkVersion_ok (hs : Governed renounced s) : checkVersion s = .ok () := by
  simp [checkVersion, hs.version]

theorem Governed.getPending_ok (hs : Governed renounced s) (role : Role) :
    getPending role s = .ok (s (.pending role)) := by
  simp [getPending, hs.checkVersion_ok]

/-- As long as the admin did not renounce, a call keeps what the target relies on. -/
theorem Governed.effect {call : Call} (hs : Governed false s) (he : Effect f s call r s' evs)
    (hversion : call.touches .storageVersion = false) : Governed false s' :=
  ⟨(he.frame hversion).trans hs.version, by simp⟩

theorem pending_of_propose (he : Effect f s (proposeCall role caller nominee) r s' evs) :
    s' (.pending role) = some nominee := by
  cases role <;> cases he <;> simp [proposed]

theorem pending_of_cancel (he : Effect f s (cancelCall role caller) r s' evs) :
    s' (.pending role) = none := by
  cases role <;> cases he <;> simp [clearedPending]

/-- The one who accepts had been proposed, has the role then, and nothing is pending for it. -/
theorem role_of_accept (he : Effect f s (acceptCall role caller) r s' evs) :
    s (.pending role) = some caller ∧ s' (.pending role) = none ∧ holder s' role = some caller := by
  cases role <;> cases he <;> rename_i accepts <;>
    exact ⟨accepts.pending, by simp [clearedPending], by simp [clearedPending, holder]⟩

theorem pending_of_renounce (he : Effect f s (.renounceAdmin caller) r s' evs) (role : Role) :
    s' (.pending role) = none := by
  cases he
  unfold droppedPending
  cases role <;> split <;> simp_all [clearedPending]

/-- A proposal is pending, and only its nominee can accept it. -/
theorem tryPropose_passes (hs : Governed false s) (role : Role) (raw : Nat) :
    Driver.Passes (tryPropose b role raw) s fun _ s' => Governed false s' := by
  refine Bench.try_ite hs.current (fun r s₁ evs he => ?_) (.pure hs)
  have hs₁ : Governed false s₁ := hs.effect he (by cases role <;> rfl)
  have hpending : s₁ (.pending role) = some (b.candidate raw) := pending_of_propose he
  refine (Driver.Yields.read (hs₁.getPending_ok role)).bind_passes ?_
  refine (Driver.Yields.assert hpending).bind_passes ?_
  refine .ite (fun hwrong => ?_) fun _ => .pure hs₁
  refine (Bench.try_passes (Q := fun accepted s' => accepted = false ∧ s' = s₁) hs₁.current
    (fun r s₂ evs he => ?_) ⟨rfl, rfl⟩).bind ?_
  · have hsame := hpending.symm.trans (role_of_accept he).1
    exact absurd (Option.some.inj hsame).symm hwrong
  · rintro _ _ ⟨hrefused, rfl⟩
    exact (Driver.Yields.assert hrefused).passes hs₁

/-- Whoever accepts has the role, and nothing is pending for it. -/
theorem tryAccept_passes (hs : Governed renounced s) (role : Role) (raw : Nat) :
    Driver.Passes (tryAccept b renounced role raw) s fun _ s' => Governed renounced s' := by
  refine Bench.try_ite hs.current (fun r s' evs he => ?_) (.pure hs)
  obtain ⟨hproposed, hcleared, hholds⟩ := role_of_accept he
  have hs' : Governed renounced s' := by
    refine ⟨(he.frame (by cases role <;> rfl)).trans hs.version, fun hrenounced => ?_⟩
    -- nothing is pending that could be accepted
    rw [hs.settled hrenounced] at hproposed
    cases hproposed
  refine (Driver.Yields.read (hs'.getPending_ok role)).bind_passes ?_
  refine (Driver.Yields.assert hcleared).bind_passes ?_
  cases role with
  | admin =>
    have hadmin : getAdmin s' = .ok (b.candidate raw) := by
      simp [getAdmin, hs'.checkVersion_ok, show s' .admin = _ from hholds]
    refine .ite (fun _ => .pure hs') fun _ => ?_
    exact (Driver.Yields.read hadmin).bind_passes ((Driver.Yields.assert rfl).passes hs')
  | operator =>
    have hoperator : getOperator s' = .ok (b.candidate raw) := by
      simp [getOperator, hs'.checkVersion_ok, show s' .operator = _ from hholds]
    exact (Driver.Yields.read hoperator).bind_passes ((Driver.Yields.assert rfl).passes hs')

/-- A proposal that is cancelled is gone. -/
theorem tryCancel_passes (hs : Governed false s) (role : Role) :
    Driver.Passes (tryCancel b role) s fun _ s' => Governed false s' := by
  refine Bench.try_ite hs.current (fun r s' evs he => ?_) (.pure hs)
  have hs' : Governed false s' := hs.effect he (by cases role <;> rfl)
  refine (Driver.Yields.read (hs'.getPending_ok role)).bind_passes ?_
  exact (Driver.Yields.assert (pending_of_cancel he)).passes hs'

theorem assertNothingPending_yields (hs : Governed renounced s)
    (hnothing : ∀ role, s (.pending role) = none) : Driver.Checks assertNothingPending s :=
  .bind (.read (hs.getPending_ok .admin)) (.bind (.read (hs.getPending_ok .operator))
    (.assert ⟨hnothing .admin, hnothing .operator⟩))

/-- Nothing is pending once the admin renounced. -/
theorem tryRenounce_passes (hs : Governed renounced s) :
    Driver.Passes (tryRenounce b) s fun ok s' => Governed (renounced || ok) s' := by
  refine Bench.try_ite hs.current (fun r s' evs he => ?_) (.pure (by simpa using hs))
  have hs' : Governed (renounced || true) s' :=
    ⟨(he.frame rfl).trans hs.version, fun _ => pending_of_renounce he⟩
  exact (assertNothingPending_yields hs' (pending_of_renounce he)).bind_passes (.pure hs')

/-- An operator that is set is the operator. -/
theorem trySetOperator_passes (hs : Governed false s) (raw : Nat) :
    Driver.Passes (trySetOperator b raw) s fun _ s' => Governed false s' := by
  refine Bench.try_ite hs.current (fun r s' evs he => ?_) (.pure hs)
  have hs' : Governed false s' := hs.effect he rfl
  have hoperator : getOperator s' = .ok (b.candidate raw) := by
    cases he
    simp [getOperator, hs'.checkVersion_ok]
  exact (Driver.Yields.read hoperator).bind_passes ((Driver.Yields.assert rfl).passes hs')

/-- An operation of the target passes its assertions and keeps what the target relies on. -/
theorem GovernanceOp.perform_passes (ops : Nat) (op : GovernanceOp) (hs : Governed renounced s) :
    Driver.Passes (op.perform b ops renounced) s fun out s' => Governed out.1 s' := by
  cases op with
  | propose role raw =>
    refine .ite (fun _ => .pure hs) fun hactive => ?_
    obtain rfl : renounced = false := by simpa using hactive
    exact (tryPropose_passes hs role raw).bind fun _ s' hs' => .pure hs'
  | accept role raw => exact (tryAccept_passes hs role raw).bind fun _ s' hs' => .pure hs'
  | cancel role =>
    refine .ite (fun _ => .pure hs) fun hactive => ?_
    obtain rfl : renounced = false := by simpa using hactive
    exact (tryCancel_passes hs role).bind fun _ s' hs' => .pure hs'
  | renounceAdmin => exact (tryRenounce_passes hs).bind fun _ s' hs' => .pure hs'
  | setOperator raw =>
    refine .ite (fun _ => .pure hs) fun hactive => ?_
    obtain rfl : renounced = false := by simpa using hactive
    exact (trySetOperator_passes hs raw).bind fun _ s' hs' => .pure hs'

/-- Whatever its input, `governance_sequences` gets to its end: proposals, acceptances,
cancellations and the renunciation do in every order what the target asserts. -/
theorem governanceSequences_passes (b : Bench) (data : List UInt8) :
    Driver.Passes (governanceSequences b data) Store.empty
      fun _ s => s .storageVersion = some storageVersion := by
  refine b.initialize_passes.bind fun _ s hinit => ?_
  have hs : Governed false s := by
    subst hinit
    exact ⟨by simp [initializedStorage], by simp⟩
  refine (Driver.Passes.drive (I := Governed) (fun ops renounced op s hs =>
    op.perform_passes ops hs) data 0 hs).bind fun renounced s' hs' => ?_
  refine .ite (fun hrenounced => ?_) fun _ => .pure hs'.version
  exact (assertNothingPending_yields hs' (hs'.settled hrenounced)).passes hs'.version

end Governance

/-! ## `config_mutation_sequences` -/

section Config

variable {getRetentionLimit : Storage → Except SLAError Nat} {b : Bench} {s : Storage}

/-- What the target relies on: the deployment is healthy and its custom severities are
consistent. -/
structure Configured (s : Storage) : Prop where
  healthy : Healthy s
  customs : CustomsConsistent s

/-- The rewards of the target are consistent with its penalties. -/
theorem reward_consistent (thr pen rew : Nat) :
    Consistent ⟨threshold thr, penalty pen, reward rew (penalty pen)⟩ := by
  have hsaturated : ∀ x : Int, 0 ≤ x → x ≤ 2 ^ 64 → saturatingSigned 128 x = x :=
    fun x hlow hhigh => by
      simp only [saturatingSigned, signedMin, signedMax]
      omega
  have hpenalty : 1 ≤ penalty pen ∧ penalty pen ≤ 10000 := by
    unfold penalty
    omega
  unfold Consistent reward
  rw [hsaturated (penalty pen * 2) (by omega) (by omega), hsaturated _ (by omega) (by omega)]
  dsimp only
  omega

/-- A call that registers no inconsistent custom severity keeps what the target relies on. -/
theorem Configured.effect {f : Frame Address} {call : Call} {r : Reply} {s' : Storage}
    {evs : List Event} (hs : Configured s) (he : Effect f s call r s' evs)
    (hregisters : ¬ RegistersInconsistent ⟨s, ⟨call, f⟩⟩) : Configured s' :=
  ⟨he.healthy hs.healthy, he.customsConsistent hs.customs hregisters⟩

/-- A call that registers no custom severity at all. -/
theorem not_registers {f : Frame Address} {call : Call}
    (h : ∀ caller severity threshold penalty reward,
      call ≠ .setCustomSeverity caller severity threshold penalty reward) :
    ¬ RegistersInconsistent ⟨s, ⟨call, f⟩⟩ := by
  rintro ⟨caller, severity, cfg, hcall, -⟩
  exact h _ _ _ _ _ hcall

/-- A call of the target keeps what the target relies on, whether it goes through or not. -/
theorem Configured.try_passes {call : Call} (hs : Configured s)
    (hregisters : ¬ RegistersInconsistent ⟨s, b.tx b.timestamp call⟩) :
    Driver.Passes (do let _ ← b.try b.timestamp call) s fun _ s' => Configured s' := by
  refine (Bench.try_passes (Q := fun _ s' => Configured s') hs.healthy.regular.current
    (fun r s' evs he => hs.effect he hregisters) hs).bind fun _ s' hs' => ?_
  exact .pure hs'

/-- An operation of the target passes its assertions and keeps what the target relies on. -/
theorem ConfigOp.run_passes (hlimit : ReadsLimit getRetentionLimit) (op : ConfigOp)
    (hs : Configured s) :
    Driver.Passes (op.run getRetentionLimit b) s fun _ s' => Configured s' := by
  cases op with
  | setConfig sev thr pen rew => exact hs.try_passes (not_registers (by simp))
  | setCustom sev thr pen rew =>
    refine hs.try_passes ?_
    rintro ⟨caller, severity, cfg, hcall, -, -, -, -, hinconsistent⟩
    obtain ⟨-, -, hthreshold, hpenalty, hreward⟩ := Call.setCustomSeverity.inj hcall
    refine hinconsistent ?_
    have hcfg := reward_consistent thr pen rew
    unfold Consistent at hcfg ⊢
    rwa [← hpenalty, ← hreward]
  | removeCustom sev => exact hs.try_passes (not_registers (by simp))
  | setRetention raw => exact hs.try_passes (not_registers (by simp))
  | calculate sev out m =>
    refine calculateWithinLimit_passes hlimit (fun _ h => h.healthy) _ _ _ _ ?_ hs
    exact fun r s' evs he => hs.effect he (not_registers (by simp))

theorem checks_configInRange {cfg : SLAConfig} (bounds : InBounds cfg)
    (consistent : Consistent cfg) :
    Driver.Checks (assertConfigInRange cfg) s :=
  .bind (.assert bounds.threshold) (.bind (.assert bounds.penalty) (.bind (.assert bounds.reward)
    (.assert consistent)))

/-- The four entries of the canonical snapshot, in canonical order. -/
theorem getConfigSnapshot_eq {configs : OrdMap Symbol SLAConfig} {c h m l : SLAConfig}
    (hs : Healthy s) (stored : s .config = some configs) (hc : Canonical configs c h m l) :
    getConfigSnapshot s = .ok ⟨symbolShort "v1", [⟨critical, c⟩, ⟨high, h⟩, ⟨medium, m⟩,
      ⟨low, l⟩]⟩ := by
  simp [getConfigSnapshot, hs.checkVersion_ok, buildConfigSnapshot, stored, canonicalSeverities,
    snapshotEntries, hc.critical, hc.high, hc.medium, hc.low]

theorem checks_snapshot {configs : OrdMap Symbol SLAConfig} {c h m l : SLAConfig}
    (hc : Canonical configs c h m l) (version : Symbol) :
    Driver.Checks (assertSnapshot ⟨version, [⟨critical, c⟩, ⟨high, h⟩, ⟨medium, m⟩, ⟨low, l⟩]⟩)
      s := by
  have hinRange : ∀ {severity : Symbol} {cfg : SLAConfig}, configs.get severity = some cfg →
      Driver.Checks (assertConfigInRange cfg) s := fun hget =>
    checks_configInRange (inBounds_of_validateConfig (hc.valid _ _ hget)).2
      (consistent_of_validateConfig (hc.valid _ _ hget))
  refine .bind (.assert rfl) (.bind (.forM ?_) ?_)
  · intro i hi
    have hrange : i = 0 ∨ i = 1 ∨ i = 2 ∨ i = 3 := by
      have hlt := List.mem_range.mp hi
      omega
    rcases hrange with rfl | rfl | rfl | rfl
    · exact .bind (.unwrap rfl) (.bind (.assert rfl) (hinRange hc.critical))
    · exact .bind (.unwrap rfl) (.bind (.assert rfl) (hinRange hc.high))
    · exact .bind (.unwrap rfl) (.bind (.assert rfl) (hinRange hc.medium))
    · exact .bind (.unwrap rfl) (.bind (.assert rfl) (hinRange hc.low))
  · exact .bind (.unwrap rfl) (.bind (.unwrap rfl) (.bind (.unwrap rfl) (.bind (.unwrap rfl)
      (.bind (.assert hc.penalties) (.assert hc.thresholds)))))

/-- The target's list of the canonical severities is the contract's. -/
theorem isCanonical_eq (severity : Symbol) :
    isCanonical severity = isCanonicalSeverity severity := by
  rw [Bool.eq_iff_iff, isCanonicalSeverity_iff]
  simp [isCanonical, canonicalSeverities]

/-- The entries of the custom snapshot are the registered custom severities. -/
theorem getCustomConfigSnapshot_eq (hs : Healthy s) :
    getCustomConfigSnapshot s = .ok ⟨symbolShort "v1",
      (customConfigs s).entries.map fun e => SLAConfigEntry.mk e.1 e.2⟩ := by
  simp [getCustomConfigSnapshot, hs.checkVersion_ok]

theorem checkInvariants_yields (hlimit : ReadsLimit getRetentionLimit) (hs : Configured s) :
    Driver.Checks (checkInvariants getRetentionLimit) s := by
  obtain ⟨configs, c, h, m, l, stored, hc, -⟩ := hs.healthy.config.canonical
  refine .bind (.read (hlimit s hs.healthy.checkVersion_ok)) ?_
  refine .bind (.assert hs.healthy.limit) ?_
  refine .bind (.read (getConfigSnapshot_eq hs.healthy stored hc)) ?_
  refine .bind (checks_snapshot hc _) ?_
  refine .bind (.read (getCustomConfigSnapshot_eq hs.healthy)) ?_
  refine .bind (.forM ?_) ?_
  · intro entry hentry
    obtain ⟨e, he, rfl⟩ := List.mem_map.mp hentry
    have hget := OrdMap.get_of_mem he
    obtain ⟨custom, bounds⟩ := hs.customs.sound _ _ hget
    refine .bind (.assert ((isCanonical_eq e.1).trans custom)) ?_
    exact checks_configInRange bounds (hs.customs.consistent _ _ hget)
  · refine .bind (.read hs.healthy.getHistory_ok) ?_
    refine .bind (.assert hs.healthy.length_le) (.forM fun entry hentry => ?_)
    have hgenuine := hs.healthy.entry_genuine hentry
    exact .bind (checks_entryWellFormed hgenuine) (.assert (threshold_inRange hgenuine))

/-- Whatever its input, `config_mutation_sequences` gets to its end: after every sequence of
configuration changes the limit, the snapshots and the entries are what the target asserts. -/
theorem configMutationSequences_passes (hlimit : ReadsLimit getRetentionLimit) (b : Bench)
    (data : List UInt8) :
    Driver.Passes (configMutationSequences getRetentionLimit b data) Store.empty
      fun _ s => Healthy s ∧ CustomsConsistent s := by
  refine b.initialize_passes.bind fun _ s hinit => ?_
  have hs : Configured s := by
    subst hinit
    have hhealthy := healthy_initialized b.admin b.operator
    exact ⟨hhealthy, hhealthy.custom, fun severity cfg hget => by
      simp [customConfigs, initializedStorage] at hget⟩
  refine Driver.Passes.bind (Q := fun _ s => Configured s) ?_ ?_
  · refine .drive (fun ops _ op s hs => ?_) data 0 hs
    exact (op.run_passes hlimit hs).bind fun _ s' hs' => .pure hs'
  · exact fun _ s' hs' => (checkInvariants_yields hlimit hs').passes ⟨hs'.healthy, hs'.customs⟩

/-- A custom severity that is registered and then used. -/
theorem configMutationSequences_passes_sample :
    Driver.Passes (configMutationSequences sampleRetentionLimit sampleBench
        [1, 4, 0, 0, 0, 9, 0, 0, 0, 9, 0, 0, 0, 9, 0, 0, 0,
          4, 4, 0, 0, 0, 1, 0, 0, 0, 5, 0, 0, 0])
      Store.empty fun _ s => Healthy s ∧ CustomsConsistent s :=
  configMutationSequences_passes readsLimit_sample sampleBench _

end Config

end ApexChainx.Fuzz
