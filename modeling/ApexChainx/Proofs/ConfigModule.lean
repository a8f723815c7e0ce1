import ApexChainx.Contract.ConfigModule
import ApexChainx.Proofs.Lanes
import ApexChainx.Proofs.Registry

/-!
# The copies of the configuration updates

`config.rs` repeats the updates of the contract without the caller. Its `remove_custom_severity`
does what the contract does. Its `set_config` leaves out the check of the penalty ordering and the
registry recording, and its `set_custom_severity` the stamp and the registry recording, so that
they agree with the contract exactly where what they leave out makes no difference
(`config_copies_iff`).
-/

namespace ApexChainx

open Host Misc

/-! ## Agreement -/

/-- The caller passes the admin check. -/
def PassesAdmin (f : Frame Address) (s : Storage) (caller : Address) : Prop :=
  (requireAdmin caller).Returns f ⟨s, [], []⟩ () ⟨s, [], []⟩

/-- Behind the admin check, the copies of the configuration module commit what the methods of the
contract commit after `txs`: the same reply, events and storage. -/
structure CopiesAgree (txs : List ContractTx) : Prop where
  setConfig : ∀ f caller severity threshold penalty reward, PassesAdmin f (after txs) caller →
    (Config.setConfig severity threshold penalty reward).commits f (after txs) =
      (setConfig caller severity threshold penalty reward).commits f (after txs)
  setCustomSeverity : ∀ f caller severity threshold penalty reward,
    PassesAdmin f (after txs) caller →
    (Config.setCustomSeverity severity threshold penalty reward).commits f (after txs) =
      (setCustomSeverity caller severity threshold penalty reward).commits f (after txs)
  removeCustomSeverity : ∀ f caller severity, PassesAdmin f (after txs) caller →
    (Config.removeCustomSeverity severity).commits f (after txs) =
      (removeCustomSeverity caller severity).commits f (after txs)

/-! ## The conditions -/

/-- The storage with a canonical severity configured. -/
def withConfig (s : Storage) (severity : Symbol) (cfg : SLAConfig) : Storage :=
  s.set .config (((s .config).getD OrdMap.empty).set severity cfg)

/-- The storage with a custom severity registered. -/
def withCustom (s : Storage) (severity : Symbol) (cfg : SLAConfig) : Storage :=
  s.set .customConfig ((customConfigs s).set severity cfg)

/-- The registry holds the snapshot of the stored configurations under their hash. -/
def HoldsBundle (s : Storage) : Prop :=
  ∃ hash snapshot, computeConfigVersionHash s = .ok hash ∧ buildConfigSnapshot s = .ok snapshot ∧
    (registryOf s).get hash = some snapshot

/-- What the `set_config` of the configuration module leaves out makes no difference: parameters
that get as far as the penalty ordering respect it, and where they are accepted the bundle they
make is registered already. -/
def UpdatesAlike (s : Storage) (severity : Symbol) (cfg : SLAConfig) : Prop :=
  isConfigFrozen s = false →
  validateConfig severity cfg.threshold_minutes cfg.penalty_per_minute cfg.reward_base = .ok () →
    validateCrossSeverityPenaltyOrdering severity cfg.penalty_per_minute s = .ok () ∧
    (validateCrossSeverityThresholdOrdering severity cfg.threshold_minutes s = .ok () →
      HoldsBundle (withConfig s severity cfg))

/-- What the `set_custom_severity` of the configuration module leaves out makes no difference: where
the parameters are accepted, the last update is stamped with the current ledger, and the bundle
they make is registered already. -/
def RegistersAlike (f : Frame Address) (s : Storage) (severity : Symbol) (cfg : SLAConfig) : Prop :=
  isConfigFrozen s = false → isCanonicalSeverity severity = false → InBounds cfg →
    s .lastCfgUpdate = some f.sequence ∧ HoldsBundle (withCustom s severity cfg)

/-! ## The stamp and the registry -/

section Registered

variable (t : Storage) (sequence : Nat) {hash : Nat} {snapshot : SLAConfigSnapshot}

/-- The recorded registry is the old one exactly when that held the snapshot. -/
theorem registry_unchanged_iff :
    t .configRegistry = some ((registryOf t).set hash snapshot) ↔
      (registryOf t).get hash = some snapshot := by
  constructor
  · intro h
    have hsame : registryOf t = (registryOf t).set hash snapshot := by
      conv_lhs => rw [registryOf, h, Option.getD_some]
    rw [hsame, OrdMap.get_set_same]
  · intro h
    rw [OrdMap.set_eq_self h]
    cases hreg : t .configRegistry with
    | none => simp [registryOf, hreg] at h
    | some registry => simp [registryOf, hreg]

theorem stamped_eq_registered_iff :
    t.set .lastCfgUpdate sequence = registered t sequence hash snapshot ↔
      (registryOf t).get hash = some snapshot := by
  rw [← registry_unchanged_iff]
  constructor
  · intro h
    have hreg := congrFun h .configRegistry
    simpa [registered, registryOf] using hreg
  · intro h
    exact (Store.set_eq_self (by simpa [registryOf] using h)).symm

theorem eq_registered_iff :
    t = registered t sequence hash snapshot ↔
      t .lastCfgUpdate = some sequence ∧ (registryOf t).get hash = some snapshot := by
  constructor
  · intro h
    have hstamp : t .lastCfgUpdate = some sequence := by
      have hkey := congrFun h .lastCfgUpdate
      simpa [registered] using hkey
    refine ⟨hstamp, (stamped_eq_registered_iff t sequence).mp ?_⟩
    rw [Store.set_eq_self hstamp]
    exact h
  · rintro ⟨hstamp, hget⟩
    have hstamped := (stamped_eq_registered_iff t sequence).mpr hget
    rwa [Store.set_eq_self hstamp] at hstamped

end Registered

/-! ## Behind the guards -/

@[simp] theorem Config.requireNotFrozen_eq_ok {s : Storage} {u : Unit} :
    Config.requireNotFrozen s = .ok u ↔ isConfigFrozen s = false :=
  ApexChainx.requireNotFrozen_eq_ok

section Guards

variable {f : Frame Address} {txs : List ContractTx} {caller : Address}

theorem PassesAdmin.by_admin (h : PassesAdmin f (after txs) caller) :
    ByAdmin f (after txs) caller := by
  simp [PassesAdmin, requireAdmin] at h
  obtain ⟨signed, standing, admin⟩ := h
  exact ⟨(configSound_of_stored admin).version, signed, standing, admin⟩

/-- Behind the admin check, a method of the contract and its copy start with the same checks of
the version and of the freeze. -/
theorem commits_guarded_iff (h : PassesAdmin f (after txs) caller) (m m' : Contract Unit) :
    (do Contract.reads checkVersion; Contract.reads Config.requireNotFrozen; m' :
        Contract Unit).commits f (after txs) =
      (do Contract.reads checkVersion; requireAdmin caller; Contract.reads requireNotFrozen; m :
        Contract Unit).commits f (after txs) ↔
    (isConfigFrozen (after txs) = false → m'.commits f (after txs) = m.commits f (after txs)) := by
  have hversion := checkVersion_eq_ok (u := ()).mpr h.by_admin.version
  rw [Prog.commits_reads_ok hversion, Prog.commits_reads_ok hversion, h.commits_bind]
  refine (Prog.commits_check_iff requireNotFrozen (fun _ => m') fun _ => m).trans ?_
  simp

end Guards

/-! ## The orderings -/

section Orderings

variable {configs : OrdMap Symbol SLAConfig} {s : Storage} {severity : Symbol} {e e' : SLAError}

theorem checkNeighbour_error {index : Nat} {bad : SLAConfig → Bool}
    (hindex : index < canonicalSeverities.length)
    (h : checkNeighbour configs index bad e = .error e') : e' = e := by
  simp only [checkNeighbour, List.getElem?_eq_getElem hindex, okOr_some, ok_bind] at h
  split at h
  · exact (refuseIf_eq_error.mp h).2.symm
  · cases h

/-- The checks against the two neighbours fail with their one error. -/
theorem checkNeighbours_error {p q : Prop} [Decidable p] [Decidable q] {i j : Nat}
    {bad bad' : SLAConfig → Bool} (hp : p → i < canonicalSeverities.length)
    (hq : q → j < canonicalSeverities.length)
    (h : (do
      if p then checkNeighbour configs i bad e
      if q then checkNeighbour configs j bad' e) = Except.error e') : e' = e := by
  have hupper : ∀ {u : Unit}, (if q then checkNeighbour configs j bad' e else pure u) =
      Except.error e' → e' = e := by
    intro u h
    split at h
    · exact checkNeighbour_error (hq ‹_›) h
    · cases h
  dsimp only at h
  by_cases hlower : p
  · rw [if_pos hlower] at h
    rcases bind_eq_error.mp h with h | ⟨_, -, h⟩
    · exact checkNeighbour_error (hp hlower) h
    · exact hupper h
  · rw [if_neg hlower] at h
    exact hupper h

theorem penaltyOrdering_error (stored : s .config = some configs)
    (canonical : isCanonicalSeverity severity = true) {penalty : Int}
    (h : validateCrossSeverityPenaltyOrdering severity penalty s = .error e) :
    e = .InvalidPenalty := by
  obtain ⟨index, hindex⟩ := Option.isSome_iff_exists.mp canonical
  have hlt : index < canonicalSeverities.length := canonicalSeverityIndex_lt hindex
  simp only [validateCrossSeverityPenaltyOrdering, stored, hindex, okOr_some, ok_bind] at h
  exact checkNeighbours_error id (fun hq => by omega) h

theorem thresholdOrdering_error (stored : s .config = some configs)
    (canonical : isCanonicalSeverity severity = true) {threshold : Nat}
    (h : validateCrossSeverityThresholdOrdering severity threshold s = .error e) :
    e = .InvalidThreshold := by
  obtain ⟨index, hindex⟩ := Option.isSome_iff_exists.mp canonical
  have hlt : index < canonicalSeverities.length := canonicalSeverityIndex_lt hindex
  simp only [validateCrossSeverityThresholdOrdering, stored, hindex, okOr_some, ok_bind] at h
  exact checkNeighbours_error id (fun hq => by omega) h

end Orderings

/-! ## The copies -/

theorem holdsBundle_iff {t : Storage} {hash : Nat} {snapshot : SLAConfigSnapshot}
    (hashed : computeConfigVersionHash t = .ok hash)
    (built : buildConfigSnapshot t = .ok snapshot) :
    HoldsBundle t ↔ (registryOf t).get hash = some snapshot := by
  simp [HoldsBundle, hashed, built]

/-- The stamp changes neither the bundle hash nor the snapshot. -/
theorem bundle_stamped {t : Storage} {hash : Nat} {snapshot : SLAConfigSnapshot}
    (hashed : computeConfigVersionHash t = .ok hash) (built : buildConfigSnapshot t = .ok snapshot)
    (sequence : Nat) :
    computeConfigVersionHash (t.set .lastCfgUpdate sequence) = .ok hash ∧
      buildConfigSnapshot (t.set .lastCfgUpdate sequence) = .ok snapshot := by
  refine ⟨?_, ?_⟩
  · rw [← hashed]
    exact computeConfigVersionHash_of_config (by simp) (by simp [customConfigs])
  · rw [← built]
    simp [buildConfigSnapshot]

section Customs

variable {f : Frame Address} {s : Storage} {caller : Address} {severity : Symbol} {cfg : SLAConfig}

/-- The event of a registered custom severity. -/
def customEvent (s : Storage) (severity : Symbol) (cfg : SLAConfig) : Event :=
  if (customConfigs s).contains severity then
    .sevUpd severity cfg.threshold_minutes cfg.penalty_per_minute cfg.reward_base
  else .sevAdd severity cfg.threshold_minutes cfg.penalty_per_minute cfg.reward_base

theorem Config.setCustomSeverity_commits (version : s .storageVersion = some storageVersion)
    (thawed : isConfigFrozen s = false) (custom : isCanonicalSeverity severity = false)
    (bounds : InBounds cfg) :
    (Config.setCustomSeverity severity cfg.threshold_minutes cfg.penalty_per_minute
      cfg.reward_base).commits f s =
        ⟨withCustom s severity cfg, [customEvent s severity cfg], .ok ()⟩ := by
  have hbounds := validateGeneralBounds_eq_ok (u := ()).mpr bounds
  refine Prog.commits_of_returns ?_
  simp [Config.setCustomSeverity, version, thawed, custom, hbounds,
    withCustom, customEvent, customConfigs]
  rfl

theorem setCustomSeverity_commits (by_admin : ByAdmin f s caller)
    (thawed : isConfigFrozen s = false) (custom : isCanonicalSeverity severity = false)
    (bounds : InBounds cfg) {hash : Nat} {snapshot : SLAConfigSnapshot}
    (hashed : computeConfigVersionHash (withCustom s severity cfg) = .ok hash)
    (built : buildConfigSnapshot (withCustom s severity cfg) = .ok snapshot) :
    (setCustomSeverity caller severity cfg.threshold_minutes cfg.penalty_per_minute
      cfg.reward_base).commits f s =
        ⟨registered (withCustom s severity cfg) f.sequence hash snapshot,
          [customEvent s severity cfg], .ok ()⟩ := by
  obtain ⟨version, signed, standing, admin⟩ := by_admin
  have hbounds := validateGeneralBounds_eq_ok (u := ()).mpr bounds
  obtain ⟨hhash, hsnapshot⟩ := bundle_stamped hashed built f.sequence
  simp only [withCustom, customConfigs] at hhash hsnapshot
  refine Prog.commits_of_returns ?_
  simp [setCustomSeverity, recordConfigUpdate, recordConfigRegistry, version, signed, standing,
    admin, thawed, custom, hbounds, hhash, hsnapshot, withCustom, customEvent, customConfigs,
    registered]
  rfl

end Customs

section Configs

variable {f : Frame Address} {s : Storage} {caller : Address} {severity : Symbol} {cfg : SLAConfig}
  {configs : OrdMap Symbol SLAConfig}

theorem Config.setConfig_commits (version : s .storageVersion = some storageVersion)
    (thawed : isConfigFrozen s = false) (stored : s .config = some configs)
    (valid : validateConfig severity cfg.threshold_minutes cfg.penalty_per_minute
      cfg.reward_base = .ok ())
    (thresholds : validateCrossSeverityThresholdOrdering severity cfg.threshold_minutes s =
      .ok ()) :
    (Config.setConfig severity cfg.threshold_minutes cfg.penalty_per_minute
      cfg.reward_base).commits f s =
        ⟨(withConfig s severity cfg).set .lastCfgUpdate f.sequence,
          [.configUpd severity cfg.threshold_minutes cfg.penalty_per_minute cfg.reward_base],
          .ok ()⟩ := by
  refine Prog.commits_of_returns ?_
  simp [Config.setConfig, recordConfigUpdate, version, thawed, stored,
    valid, thresholds, withConfig]

theorem setConfig_commits (by_admin : ByAdmin f s caller) (thawed : isConfigFrozen s = false)
    (stored : s .config = some configs) (hok : Acceptable s severity cfg)
    (count : s .configCount = some (configs.set severity cfg).len) {hash : Nat}
    {snapshot : SLAConfigSnapshot}
    (hashed : computeConfigVersionHash (withConfig s severity cfg) = .ok hash)
    (built : buildConfigSnapshot (withConfig s severity cfg) = .ok snapshot) :
    (setConfig caller severity cfg.threshold_minutes cfg.penalty_per_minute
      cfg.reward_base).commits f s =
        ⟨registered (withConfig s severity cfg) f.sequence hash snapshot,
          [.configUpd severity cfg.threshold_minutes cfg.penalty_per_minute cfg.reward_base],
          .ok ()⟩ := by
  obtain ⟨version, signed, standing, admin⟩ := by_admin
  obtain ⟨hhash, hsnapshot⟩ := bundle_stamped hashed built f.sequence
  have hcount : (s.set .config (configs.set severity cfg)).set .configCount
      (configs.set severity cfg).len = s.set .config (configs.set severity cfg) :=
    Store.set_eq_self (by simp [count])
  simp only [withConfig, stored, Option.getD_some] at hhash hsnapshot
  refine Prog.commits_of_returns ?_
  simp [setConfig, recordConfigUpdate, recordConfigRegistry, version, signed, standing, admin,
    thawed, stored, hok.valid, hok.penalties, hok.thresholds, hcount, hhash, hsnapshot, withConfig,
    registered]

end Configs

/-! ## Agreement, exactly -/

section Agreement

variable {f : Frame Address} {txs : List ContractTx} {caller : Address}

theorem removeCustomSeverity_agrees (h : PassesAdmin f (after txs) caller) (severity : Symbol) :
    (Config.removeCustomSeverity severity).commits f (after txs) =
      (removeCustomSeverity caller severity).commits f (after txs) :=
  (commits_guarded_iff h _ _).mpr fun _ => rfl

theorem setCustomSeverity_agrees_iff (h : PassesAdmin f (after txs) caller) (severity : Symbol)
    (cfg : SLAConfig) :
    (Config.setCustomSeverity severity cfg.threshold_minutes cfg.penalty_per_minute
      cfg.reward_base).commits f (after txs) =
        (setCustomSeverity caller severity cfg.threshold_minutes cfg.penalty_per_minute
          cfg.reward_base).commits f (after txs) ↔
      RegistersAlike f (after txs) severity cfg := by
  by_cases haccepted : isConfigFrozen (after txs) = false ∧
      isCanonicalSeverity severity = false ∧ InBounds cfg
  · obtain ⟨thawed, custom, bounds⟩ := haccepted
    have hs := configSound_of_stored h.by_admin.version
    have hnew : ConfigSound (withCustom (after txs) severity cfg) :=
      hs.congr (by simp [withCustom]) (by simp [withCustom]) (by simp [withCustom])
    obtain ⟨hash, snapshot, hashed, built⟩ := hnew.bundle
    have hstamp : withCustom (after txs) severity cfg .lastCfgUpdate =
        after txs .lastCfgUpdate := by simp [withCustom]
    rw [Config.setCustomSeverity_commits hs.version thawed custom bounds,
      setCustomSeverity_commits h.by_admin thawed custom bounds hashed built, RegistersAlike,
      holdsBundle_iff hashed built, ← hstamp]
    simp only [Outcome.mk.injEq, and_true, thawed, custom, bounds, forall_const]
    exact eq_registered_iff _ _
  · refine iff_of_true ?_ ?_
    · refine (commits_guarded_iff h _ _).mpr fun thawed => ?_
      refine (Prog.commits_failIf_iff ..).mpr fun custom => ?_
      refine (Prog.commits_check_iff ..).mpr fun bounds => absurd ⟨thawed, ?_, ?_⟩ haccepted
      · simpa using custom
      · exact validateGeneralBounds_eq_ok.mp bounds
    · exact fun thawed custom bounds => absurd ⟨thawed, custom, bounds⟩ haccepted

/-- Where the penalty ordering refuses, the contract fails with an error that the copy, which does
not check it, never returns. -/
theorem setConfig_disagrees (h : PassesAdmin f (after txs) caller) {severity : Symbol}
    {cfg : SLAConfig} (thawed : isConfigFrozen (after txs) = false)
    (valid : validateConfig severity cfg.threshold_minutes cfg.penalty_per_minute
      cfg.reward_base = .ok ()) {e : SLAError}
    (unordered : validateCrossSeverityPenaltyOrdering severity cfg.penalty_per_minute (after txs) =
      .error e) :
    (Config.setConfig severity cfg.threshold_minutes cfg.penalty_per_minute
      cfg.reward_base).commits f (after txs) ≠
        (setConfig caller severity cfg.threshold_minutes cfg.penalty_per_minute
          cfg.reward_base).commits f (after txs) := by
  have version := h.by_admin.version
  obtain ⟨configs, -, -, -, -, stored, -⟩ := (configSound_of_stored version).canonical
  have canonical := (inBounds_of_validateConfig valid).1
  have hversion := checkVersion_eq_ok (u := ()).mpr version
  have hthawed := requireNotFrozen_eq_ok (u := ()).mpr thawed
  have hlib : (setConfig caller severity cfg.threshold_minutes cfg.penalty_per_minute
      cfg.reward_base).commits f (after txs) = ⟨after txs, [], .error (.err .InvalidPenalty)⟩ := by
    rw [setConfig, Prog.commits_reads_ok hversion, h.commits_bind, Prog.commits_reads_ok hthawed,
      Prog.commits_reads_ok valid, Prog.commits_reads_error unordered,
      penaltyOrdering_error stored canonical unordered]
  rw [hlib]
  cases hthresholds : validateCrossSeverityThresholdOrdering severity cfg.threshold_minutes
      (after txs) with
  | error e' =>
    rw [Config.setConfig, Prog.commits_reads_ok hversion,
      Prog.commits_reads_ok ((Config.requireNotFrozen_eq_ok (u := ())).mpr thawed),
      Prog.commits_reads_ok valid, Prog.commits_reads_error hthresholds,
      thresholdOrdering_error stored canonical hthresholds]
    simp
  | ok u =>
    rw [Config.setConfig_commits version thawed stored valid hthresholds]
    simp

/-- On accepted parameters the copy agrees exactly when the bundle they make is registered. -/
theorem setConfig_accepted_iff (h : PassesAdmin f (after txs) caller) {severity : Symbol}
    {cfg : SLAConfig} (thawed : isConfigFrozen (after txs) = false)
    (hok : Acceptable (after txs) severity cfg) :
    (Config.setConfig severity cfg.threshold_minutes cfg.penalty_per_minute
      cfg.reward_base).commits f (after txs) =
        (setConfig caller severity cfg.threshold_minutes cfg.penalty_per_minute
          cfg.reward_base).commits f (after txs) ↔
      HoldsBundle (withConfig (after txs) severity cfg) := by
  have hs := configSound_of_stored h.by_admin.version
  obtain ⟨configs, -, -, -, -, stored, -⟩ := hs.canonical
  have hcount := hs.count_set stored hok
  have hnew : ConfigSound (withConfig (after txs) severity cfg) :=
    hs.update stored hok (by simp [withConfig]) (by simp [withConfig, stored])
      (by simpa [withConfig] using hcount)
  obtain ⟨hash, snapshot, hashed, built⟩ := hnew.bundle
  rw [Config.setConfig_commits hs.version thawed stored hok.valid hok.thresholds,
    setConfig_commits h.by_admin thawed stored hok hcount hashed built,
    holdsBundle_iff hashed built]
  simp only [Outcome.mk.injEq, and_true]
  exact stamped_eq_registered_iff _ _

theorem setConfig_agrees_iff (h : PassesAdmin f (after txs) caller) (severity : Symbol)
    (cfg : SLAConfig) :
    (Config.setConfig severity cfg.threshold_minutes cfg.penalty_per_minute
      cfg.reward_base).commits f (after txs) =
        (setConfig caller severity cfg.threshold_minutes cfg.penalty_per_minute
          cfg.reward_base).commits f (after txs) ↔
      UpdatesAlike (after txs) severity cfg := by
  by_cases hchecked : isConfigFrozen (after txs) = false ∧
      validateConfig severity cfg.threshold_minutes cfg.penalty_per_minute cfg.reward_base = .ok ()
  · obtain ⟨thawed, valid⟩ := hchecked
    simp only [UpdatesAlike, thawed, valid, forall_const]
    cases penalties : validateCrossSeverityPenaltyOrdering severity cfg.penalty_per_minute
        (after txs) with
    | error e => exact iff_of_false (setConfig_disagrees h thawed valid penalties) (by simp)
    | ok u =>
      by_cases thresholds : validateCrossSeverityThresholdOrdering severity cfg.threshold_minutes
          (after txs) = .ok ()
      · simp only [true_and, thresholds, forall_const]
        exact setConfig_accepted_iff h thawed ⟨valid, penalties, thresholds⟩
      · refine iff_of_true ?_ ⟨rfl, fun h => absurd h thresholds⟩
        -- both get as far as the threshold ordering
        refine (commits_guarded_iff h _ _).mpr fun _ => (Prog.commits_check_iff ..).mpr fun _ => ?_
        rw [Contract.reads, Contract.reads, Prog.commits_reads_ok penalties]
        exact (Prog.commits_check_iff ..).mpr fun h => absurd h thresholds
  · refine iff_of_true ?_ fun thawed valid => absurd ⟨thawed, valid⟩ hchecked
    refine (commits_guarded_iff h _ _).mpr fun thawed => ?_
    exact (Prog.commits_check_iff ..).mpr fun valid => absurd ⟨thawed, valid⟩ hchecked

end Agreement

/-- After `txs`, behind the admin check, the copies commit what the methods of the contract commit
exactly where what they leave out makes no difference. -/
structure CopiesAgreeExactly (txs : List ContractTx) : Prop where
  setConfig_iff : ∀ f caller severity threshold penalty reward, PassesAdmin f (after txs) caller →
    ((Config.setConfig severity threshold penalty reward).commits f (after txs) =
        (setConfig caller severity threshold penalty reward).commits f (after txs) ↔
      UpdatesAlike (after txs) severity ⟨threshold, penalty, reward⟩)
  setCustomSeverity_iff : ∀ f caller severity threshold penalty reward,
    PassesAdmin f (after txs) caller →
    ((Config.setCustomSeverity severity threshold penalty reward).commits f (after txs) =
        (setCustomSeverity caller severity threshold penalty reward).commits f (after txs) ↔
      RegistersAlike f (after txs) severity ⟨threshold, penalty, reward⟩)
  removeCustomSeverity_eq : ∀ f caller severity, PassesAdmin f (after txs) caller →
    (Config.removeCustomSeverity severity).commits f (after txs) =
      (removeCustomSeverity caller severity).commits f (after txs)

theorem config_copies_iff (txs : List ContractTx) : CopiesAgreeExactly txs where
  setConfig_iff := fun _ _ severity threshold penalty reward h =>
    setConfig_agrees_iff h severity ⟨threshold, penalty, reward⟩
  setCustomSeverity_iff := fun _ _ severity threshold penalty reward h =>
    setCustomSeverity_agrees_iff h severity ⟨threshold, penalty, reward⟩
  removeCustomSeverity_eq := fun _ _ severity h => removeCustomSeverity_agrees h severity

/-- After `launch` the copy accepts a penalty of high above that of critical, which the contract
refuses. -/
theorem copies_disagree_launch : ¬ CopiesAgree launch := by
  intro h
  have standing : after launch .adminRenounced = none := by decide
  have admin : after launch .admin = some ⟨1⟩ := by decide
  have hadmin : PassesAdmin ⟨[⟨1⟩], 2, 2⟩ (after launch) ⟨1⟩ := by
    simp [PassesAdmin, requireAdmin, standing, admin]
  have hreply := congrArg Outcome.reply (h.setConfig ⟨[⟨1⟩], 2, 2⟩ ⟨1⟩ high 30 200 750 hadmin)
  revert hreply
  decide

end ApexChainx
