import ApexChainx.Proofs.SharedCalls

/-!
# The freeze flag

While the contract is frozen no call changes the configuration, the retention limit or the roles,
whatever runs until a successful `unfreeze_config` (`frozen_stretch`). The calculation, the prunes
and the pause switch never read the flag: on the storage with the flag flipped they do the same
(`ignores_freeze`).
-/

namespace ApexChainx

open Host Misc

/-! ## What is frozen -/

/-- The keys the freeze protects: the configuration, the retention limit, the roles and the
pending slots. -/
def isFrozenKey : StorageKey → Bool
  | .config | .customConfig | .configRegistry | .retentionLimit => true
  | .admin | .operator | .pending _ | .pendingTs _ => true
  | _ => false

/-- A successful `unfreeze_config`. -/
def unfreezes (st : ContractStep) : Bool :=
  match st.tx.call with
  | .unfreezeConfig _ => succeeds st
  | _ => false

/-- The contract is frozen, and has an admin, so that it cannot be initialized again. -/
structure Frozen (s : Storage) : Prop where
  frozen : isConfigFrozen s = true
  admin : (s .admin).isSome

section Steps

variable {f : Frame Address} {s s' : Storage} {c : Call} {r : Reply} {evs : List Event}

/-- A frozen contract refuses every call that writes a protected key. -/
theorem Effect.keeps_frozen_keys (he : Effect f s c r s' evs) (hs : Frozen s)
    {k : StorageKey} (hk : isFrozenKey k = true) : s' k = s k := by
  by_cases htouched : c.touches k = true
  · obtain ⟨hfrozen, hadmin⟩ := hs
    have not_thawed : ¬ isConfigFrozen s = false := by simp [hfrozen]
    cases he
    case initialized absent _ _ => simp only [absent, Option.isSome_none, Bool.false_eq_true]
      at hadmin
    -- the calls that do not check the flag write no protected key
    case migrateCurrent | stillFrozen | keptAll | replayed => rfl
    case paused | unpaused | thawed | pruned | prunedByAge | recorded =>
      cases k <;> simp only [isFrozenKey, Bool.false_eq_true] at hk <;>
        simp [Call.touches, History.isHistoryKey, isTelemetryKey] at htouched
    case adminAccepted accepts => exact absurd accepts.thawed not_thawed
    case operatorAccepted accepts => exact absurd accepts.thawed not_thawed
    all_goals exact absurd (by assumption) not_thawed
  · exact he.frame (by simpa using htouched)

/-- Only a successful `unfreeze_config` thaws a frozen contract. -/
theorem Effect.stays_frozen (he : Effect f s c r s' evs) (hs : Frozen s)
    (hunfreeze : ∀ caller, c ≠ .unfreezeConfig caller) : Frozen s' := by
  refine ⟨?_, by rw [he.keeps_frozen_keys hs rfl]; exact hs.admin⟩
  by_cases htouched : c.touches .freeze = true
  · cases he <;> simp [Call.touches, History.isHistoryKey, isTelemetryKey] at htouched
    case frozen => simp [isConfigFrozen]
    case stillFrozen => exact hs.frozen
    case thawed => exact absurd rfl (hunfreeze _)
    case stillThawed => exact absurd rfl (hunfreeze _)
  · rw [isConfigFrozen, he.frame (by simpa using htouched)]
    exact hs.frozen

/-- Freezing needs a standing admin, and a frozen contract keeps its admin. -/
theorem Effect.frozen_of (he : Effect f s c r s' evs)
    (hs : isConfigFrozen s = true → Frozen s) (hfrozen : isConfigFrozen s' = true) :
    Frozen s' := by
  by_cases hunfreeze : ∃ caller, c = .unfreezeConfig caller
  · obtain ⟨caller, rfl⟩ := hunfreeze
    cases he with
    | thawed => simp [isConfigFrozen] at hfrozen
    | stillThawed => exact hs hfrozen
  · by_cases hbefore : isConfigFrozen s = true
    · exact he.stays_frozen (hs hbefore) fun caller h => hunfreeze ⟨caller, h⟩
    · have htouched : c.touches .freeze = true := by
        by_contra h
        rw [isConfigFrozen, he.frame (by simpa using h)] at hfrozen
        exact hbefore hfrozen
      cases he <;> simp [Call.touches, History.isHistoryKey, isTelemetryKey] at htouched
      case frozen by_admin _ => exact ⟨by simp [isConfigFrozen], by simp [by_admin.admin]⟩
      case stillFrozen => exact absurd hfrozen hbefore
      case thawed => exact absurd ⟨_, rfl⟩ hunfreeze
      case stillThawed => exact absurd hfrozen hbefore

end Steps

/-- A run that ends frozen ends with an admin. -/
theorem frozen_of_isConfigFrozen (txs : List ContractTx)
    (h : isConfigFrozen (after txs) = true) : Frozen (after txs) := by
  refine effect_induction (P := fun _ s => isConfigFrozen s = true → Frozen s) ?_
    (fun _ _ _ _ _ _ _ hs he _ => he.frozen_of hs) (fun _ _ _ _ hs _ => hs) txs h
  intro hfrozen
  simp [isConfigFrozen] at hfrozen

/-- Until an `unfreeze_config` succeeds a frozen contract stays frozen and keeps the protected
keys. -/
theorem frozen_stretch {txs later : List ContractTx} (hfrozen : isConfigFrozen (after txs) = true)
    (hnone : ∀ st ∈ trace exec (after txs) later, unfreezes st = false) :
    Frozen (after (txs ++ later)) ∧
      ∀ k, isFrozenKey k = true → after (txs ++ later) k = after txs k := by
  refine stretch_induction txs (P := fun later s =>
    (∀ st ∈ trace exec (after txs) later, unfreezes st = false) →
      Frozen s ∧ ∀ k, isFrozenKey k = true → s k = after txs k) ?_ ?_ ?_ later hnone
  · intro _
    exact ⟨frozen_of_isConfigFrozen txs hfrozen, fun _ _ => rfl⟩
  · intro later tx r s' evs ih he hi hnone
    rw [trace_after_concat] at hnone
    obtain ⟨hs, hkeys⟩ := ih fun st hst => hnone st (List.mem_append_left _ hst)
    refine ⟨he.stays_frozen hs ?_, fun k hk => by rw [he.keeps_frozen_keys hs hk, hkeys k hk]⟩
    intro caller hcall
    have hlast := hnone ⟨after (txs ++ later), tx⟩ (by simp)
    simp [unfreezes, hcall, succeeds, Step.outcome, hi, Except.isOk, Except.toBool] at hlast
  · intro later tx x ih hi hnone
    rw [trace_after_concat] at hnone
    exact ih fun st hst => hnone st (List.mem_append_left _ hst)

/-! ## What the freeze leaves alone -/

/-- The storage with the freeze flag flipped. -/
def flipFreeze (s : Storage) : Storage := s.set .freeze (!isConfigFrozen s)

/-- The calls that do not depend on the freeze flag. -/
def Call.ignoresFreeze : Call → Bool
  | .calculateSla _ _ _ _ | .pruneHistory _ _ | .pruneHistoryByAge _ _ => true
  | .pause _ _ | .unpause _ => true
  | _ => false

/-- The keys other than the freeze flag. -/
def unflagged : Set StorageKey := {k | k ≠ .freeze}

/-- The environments differ in the freeze flag only, which holds `flag` in the first one and
`flag'` in the second. -/
structure UpToFreeze (flag flag' : Option Bool) (env env' : ContractEnv) : Prop where
  agree : Store.Agree unflagged env.storage env'.storage
  events : env.events = env'.events
  freeze : env.storage .freeze = flag
  freeze' : env'.storage .freeze = flag'

section UpToFreeze

variable {flag flag' : Option Bool}

theorem agrees_upToFreeze : Agrees (UpToFreeze flag flag') unflagged := fun _ _ h => h.agree

theorem allows_upToFreeze : Allows (UpToFreeze flag flag') unflagged where
  set := by
    intro env env' h k hk v
    have hne : StorageKey.freeze ≠ k := fun e => hk e.symm
    exact ⟨h.agree.set k v, h.events, by simpa [hne] using h.freeze,
      by simpa [hne] using h.freeze'⟩
  remove := by
    intro env env' h k hk
    have hne : StorageKey.freeze ≠ k := fun e => hk e.symm
    exact ⟨h.agree.remove k, h.events, by simpa [hne] using h.freeze,
      by simpa [hne] using h.freeze'⟩
  publish := by
    intro env env' h e
    exact ⟨h.agree, by simp [h.events], h.freeze, h.freeze'⟩

end UpToFreeze

theorem guards_unflagged (k : StorageKey) (hk : isGuardKey k = true) : k ∈ unflagged := by
  rintro rfl
  cases hk

theorem counters_unflagged (k : StorageKey) (hk : k = .stats ∨ isTelemetryKey k = true) :
    k ∈ unflagged := by
  rintro rfl
  rcases hk with hk | hk <;> cases hk

theorem history_unflagged (k : StorageKey) (hk : History.isHistoryKey k = true) :
    k ∈ unflagged := by
  rintro rfl
  cases hk

/-! ### The entry points -/

section Programs

variable {rel : ContractEnv → ContractEnv → Prop} (hr : Agrees rel unflagged)
  (hw : Allows rel unflagged)

include hr hw

theorem keeps_recordDecision (severity : Symbol) (result : SLAResult) (indices : List Nat) :
    Keeps rel (recordDecision severity result indices) :=
  .bind (keeps_recordSeverityTelemetry counters_unflagged hr hw _ _) fun _ =>
    .bind (.getD hr (by simp [unflagged]) _) fun _ =>
      .bind (History.keeps_appendEntry history_unflagged hr hw _ _ _) fun _ =>
        .bind (keeps_recordStats counters_unflagged hr hw _) fun _ => .bind .sequence fun _ =>
          .bind (.publish hw _) fun _ => .bind (.publish hw _) fun _ => .pure _

theorem keeps_calculateSla (caller : Address) (outage_id severity : Symbol) (mttr : Nat) :
    Keeps rel (calculateSla caller outage_id severity mttr) := by
  have hload : ∀ s s' : Storage, Store.Agree unflagged s s' →
      loadConfig severity s = loadConfig severity s' := fun s s' h =>
    loadConfig_of_config (h .config (by simp [unflagged]))
      (customConfigs_of_key (h .customConfig (by simp [unflagged]))) severity
  refine .bind (keeps_checkVersion guards_unflagged hr) fun _ =>
    .bind (.reads hr fun _ _ _ => rfl) fun _ =>
      .bind (keeps_requireNotPaused hr (by simp [unflagged])) fun _ =>
        .bind (keeps_requireOperator guards_unflagged hr _) fun _ =>
          .bind (.reads hr hload) fun cfg => .bind (.reads hr fun s s' h => ?_) fun hash =>
            .bind .timestamp fun _ => .bind (.reads hr fun _ _ _ => rfl) fun result =>
              .bind (History.keeps_indices history_unflagged hr _) fun indices =>
                .bind (.ask hr fun s s' h => ?_) fun existing => ?_
  · simp only [computeSeverityConfigHash, hload s s' h]
  · have hentry : History.readEntry s = History.readEntry s' := by
      funext i
      exact h (.histEntry i) (by simp [unflagged])
    rw [hentry]
  · have hrecord := keeps_recordDecision hr hw severity result indices
    cases existing with
    | none => exact hrecord
    | some prev =>
      exact .ite _ (.ite _ (.bind (.publish hw _) fun _ => .fail _) (.pure _))
        (.ite _ (.fail _) hrecord)

/-- The calls that ignore the freeze flag keep every relation that leaves the flag alone. -/
theorem keeps_ignoring {c : Call} (hc : c.ignoresFreeze = true) : Keeps rel (exec c) := by
  have hreply : ∀ {α : Type} {m : Contract α} (k : α → Reply), Keeps rel m →
      Keeps rel (do let a ← m; pure (k a)) := fun _ hm => .bind hm fun _ => .pure _
  cases c <;> simp only [Call.ignoresFreeze, Bool.false_eq_true] at hc
  case calculateSla => exact hreply _ (keeps_calculateSla hr hw _ _ _ _)
  case pruneHistory =>
    exact hreply _ (keeps_pruneHistory guards_unflagged history_unflagged hr hw _ _)
  case pruneHistoryByAge =>
    exact hreply _ (keeps_pruneHistoryByAge guards_unflagged history_unflagged hr hw _ _)
  case pause =>
    exact hreply _ (keeps_pause guards_unflagged hr hw (by simp [unflagged])
      (by simp [unflagged]) _ _)
  case unpause =>
    exact hreply _ (keeps_unpause guards_unflagged hr hw (by simp [unflagged])
      (by simp [unflagged]) _)

end Programs

/-- Such a call ends on the flipped flag as it ends without, and leaves the flag as it was. -/
structure Ignores (s : Storage) (tx : ContractTx) : Prop where
  reply : (invoke exec tx (flipFreeze s)).reply = (invoke exec tx s).reply
  events : (invoke exec tx (flipFreeze s)).events = (invoke exec tx s).events
  storage : (invoke exec tx (flipFreeze s)).storage = flipFreeze (invoke exec tx s).storage
  freeze : (invoke exec tx s).storage .freeze = s .freeze

theorem upToFreeze_flipFreeze (s : Storage) :
    UpToFreeze (s .freeze) (some !isConfigFrozen s) ⟨s, [], []⟩ ⟨flipFreeze s, [], []⟩ := by
  refine ⟨?_, rfl, rfl, by simp [flipFreeze]⟩
  intro k hk
  exact (Store.set_other s _ hk).symm

theorem eq_flipFreeze {flag : Option Bool} {env env' : ContractEnv}
    (h : UpToFreeze flag (some !flag.getD false) env env') :
    env'.storage = flipFreeze env.storage := by
  apply Store.ext
  intro k
  by_cases hk : k = .freeze
  · subst hk
    rw [h.freeze', flipFreeze, Store.set_same, isConfigFrozen, h.freeze]
  · rw [flipFreeze, Store.set_other _ _ hk]
    exact (h.agree k hk).symm

/-- The calculation, the prunes and the pause switch do not depend on the freeze flag. -/
theorem ignores_freeze (s : Storage) {tx : ContractTx} (hcall : tx.call.ignoresFreeze = true) :
    Ignores s tx := by
  have hkeeps : Keeps (UpToFreeze (s .freeze) (some !isConfigFrozen s)) (exec tx.call) :=
    keeps_ignoring agrees_upToFreeze allows_upToFreeze hcall
  rcases (hkeeps tx.frame).invoke (upToFreeze_flipFreeze s) with
    ⟨r, env, env', hends, hrun, hrun'⟩ | ⟨x, hrun, hrun'⟩
  · refine ⟨?_, ?_, ?_, ?_⟩
    · rw [hrun, hrun']
    · rw [hrun, hrun', hends.events]
    · rw [hrun, hrun']
      exact eq_flipFreeze hends
    · rw [hrun]
      exact hends.freeze
  · refine ⟨?_, ?_, ?_, ?_⟩ <;> rw [hrun]
    · rw [hrun']
    · rw [hrun']
    · rw [hrun']

/-! ## The freeze is exact -/

/-- What the freeze does from the state a run ends in: while the contract stays frozen the
protected keys and the bundle hash stay as they are, and the calls that ignore the flag cannot
tell whether it is set. -/
structure FreezeExact (txs : List ContractTx) : Prop where
  frozen : isConfigFrozen (after txs) = true → ∀ later,
    (∀ st ∈ trace exec (after txs) later, unfreezes st = false) →
    isConfigFrozen (after (txs ++ later)) = true ∧
      (∀ k, isFrozenKey k = true → after (txs ++ later) k = after txs k) ∧
      computeConfigVersionHash (after (txs ++ later)) = computeConfigVersionHash (after txs)
  ignored : ∀ tx : ContractTx, tx.call.ignoresFreeze = true → Ignores (after txs) tx

/-- In every reachable state the freeze freezes what it names, and nothing else. -/
theorem freeze_is_exact (txs : List ContractTx) : FreezeExact txs where
  frozen := by
    intro hfrozen later hnone
    obtain ⟨hstill, hkeys⟩ := frozen_stretch hfrozen hnone
    exact ⟨hstill.frozen, hkeys,
      computeConfigVersionHash_of_config (hkeys .config rfl)
        (customConfigs_of_key (hkeys .customConfig rfl))⟩
  ignored := fun _ hcall => ignores_freeze (after txs) hcall

/-- A run whose admin freezes the configuration. -/
def frozenRun : List ContractTx := busyRun ++ [⟨.freezeConfig ⟨1⟩, ⟨[⟨1⟩], 7, 7⟩⟩]

/-- Calls made while it is frozen, of which the first two are refused. -/
def frozenCalls : List ContractTx :=
  [⟨.setConfig ⟨1⟩ critical 15 100 750, ⟨[⟨1⟩], 8, 8⟩⟩, ⟨.proposeAdmin ⟨1⟩ ⟨3⟩, ⟨[⟨1⟩], 9, 9⟩⟩,
    submitTen 10 critical, ⟨.pruneHistory ⟨1⟩ 1, ⟨[⟨1⟩], 11, 11⟩⟩]

theorem freeze_is_exact_frozenRun :
    isConfigFrozen (after (frozenRun ++ frozenCalls)) = true ∧
      (∀ k, isFrozenKey k = true → after (frozenRun ++ frozenCalls) k = after frozenRun k) ∧
      computeConfigVersionHash (after (frozenRun ++ frozenCalls)) =
        computeConfigVersionHash (after frozenRun) :=
  (freeze_is_exact frozenRun).frozen (by decide) frozenCalls (by decide)

end ApexChainx
