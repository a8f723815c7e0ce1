import Mathlib.Tactic.Tauto
import ApexChainx.Proofs.Runs

/-!
# The configuration invariant

Once `initialize` has succeeded, the canonical map holds exactly the four canonical severities,
each with a configuration that `validate_config` accepts, ordered across severities. `set_config`
checks only the neighbours of the severity it writes, so the order of the whole map is an
induction over the updates (`Canonical.set`). Every lookup of a canonical severity then succeeds.
-/

namespace ApexChainx

open Host Misc

/-! ## Bounds -/

/-- The bounds `validate_general_bounds` accepts. -/
structure InBounds (cfg : SLAConfig) : Prop where
  threshold : 1 ≤ cfg.threshold_minutes ∧ cfg.threshold_minutes ≤ 1440
  penalty : 1 ≤ cfg.penalty_per_minute ∧ cfg.penalty_per_minute ≤ 10000
  reward : 1 ≤ cfg.reward_base ∧ cfg.reward_base ≤ 100000

theorem validateGeneralBounds_eq_ok {cfg : SLAConfig} {u : Unit} :
    validateGeneralBounds cfg.threshold_minutes cfg.penalty_per_minute cfg.reward_base = .ok u ↔
      InBounds cfg := by
  simp only [validateGeneralBounds, bind_eq_ok, refuseIf_eq_ok]
  constructor
  · rintro ⟨_, ht, _, hp, hr⟩
    exact ⟨by omega, by omega, by omega⟩
  · rintro ⟨ht, hp, hr⟩
    exact ⟨(), by omega, (), by omega, by omega⟩

theorem inBounds_of_validateConfig {severity : Symbol} {cfg : SLAConfig} {u : Unit}
    (h : validateConfig severity cfg.threshold_minutes cfg.penalty_per_minute cfg.reward_base =
      .ok u) : isCanonicalSeverity severity = true ∧ InBounds cfg := by
  simp only [validateConfig, bind_eq_ok, refuseIf_eq_ok] at h
  obtain ⟨_, canonical, _, bounds, -⟩ := h
  exact ⟨by simpa using canonical, validateGeneralBounds_eq_ok.mp bounds⟩

/-! ## Canonical severities -/

@[simp] theorem canonicalSeverityIndex_critical : canonicalSeverityIndex critical = some 0 := rfl
@[simp] theorem canonicalSeverityIndex_high : canonicalSeverityIndex high = some 1 := rfl
@[simp] theorem canonicalSeverityIndex_medium : canonicalSeverityIndex medium = some 2 := rfl
@[simp] theorem canonicalSeverityIndex_low : canonicalSeverityIndex low = some 3 := rfl

theorem isCanonicalSeverity_iff {severity : Symbol} :
    isCanonicalSeverity severity = true ↔ severity ∈ canonicalSeverities := by
  by_cases h₀ : severity = critical
  · subst h₀; decide
  by_cases h₁ : severity = high
  · subst h₁; decide
  by_cases h₂ : severity = medium
  · subst h₂; decide
  by_cases h₃ : severity = low
  · subst h₃; decide
  simp [isCanonicalSeverity, canonicalSeverityIndex, canonicalSeverities, h₀, h₁, h₂, h₃]

/-- The canonical configurations: the four severities and no other, each valid, ordered by
threshold and (down to medium) by penalty. -/
structure Canonical (configs : OrdMap Symbol SLAConfig) (c h m l : SLAConfig) : Prop where
  critical : configs.get critical = some c
  high : configs.get high = some h
  medium : configs.get medium = some m
  low : configs.get low = some l
  keys : ∀ severity, configs.contains severity = true ↔ severity ∈ canonicalSeverities
  valid : ∀ severity cfg, configs.get severity = some cfg →
    validateConfig severity cfg.threshold_minutes cfg.penalty_per_minute cfg.reward_base = .ok ()
  thresholds : c.threshold_minutes ≤ h.threshold_minutes ∧
    h.threshold_minutes ≤ m.threshold_minutes ∧ m.threshold_minutes ≤ l.threshold_minutes
  penalties : h.penalty_per_minute ≤ c.penalty_per_minute ∧
    m.penalty_per_minute ≤ h.penalty_per_minute

theorem canonical_default :
    Canonical defaultConfigs ⟨15, 100, 750⟩ ⟨30, 50, 750⟩ ⟨60, 25, 750⟩ ⟨120, 10, 600⟩ where
  critical := by rfl
  high := by rfl
  medium := by rfl
  low := by rfl
  keys := fun severity => by
    simp only [defaultConfigs, OrdMap.contains_set, OrdMap.contains_empty, canonicalSeverities,
      List.mem_cons, List.not_mem_nil, or_false, Bool.false_eq_true]
    tauto
  valid := fun severity cfg h => by
    simp only [defaultConfigs, OrdMap.get_set, OrdMap.get_empty] at h
    split at h
    · rename_i e; subst e; cases h; rfl
    split at h
    · rename_i e; subst e; cases h; rfl
    split at h
    · rename_i e; subst e; cases h; rfl
    split at h
    · rename_i e; subst e; cases h; rfl
    · cases h
  thresholds := by decide
  penalties := by decide

/-! ## One update -/

/-- The checks that `set_config` makes of its parameters. -/
structure Acceptable (s : Storage) (severity : Symbol) (cfg : SLAConfig) : Prop where
  valid : validateConfig severity cfg.threshold_minutes cfg.penalty_per_minute cfg.reward_base =
    .ok ()
  penalties : validateCrossSeverityPenaltyOrdering severity cfg.penalty_per_minute s = .ok ()
  thresholds : validateCrossSeverityThresholdOrdering severity cfg.threshold_minutes s = .ok ()

section Update

variable {configs : OrdMap Symbol SLAConfig} {c h m l : SLAConfig} {s : Storage}

/-- `set_config` compares with the neighbours of the severity it writes, and that is enough to
keep the whole map ordered. -/
theorem Canonical.set (hc : Canonical configs c h m l) (stored : s .config = some configs)
    {severity : Symbol} {cfg : SLAConfig} (hok : Acceptable s severity cfg) :
    ∃ c' h' m' l', Canonical (configs.set severity cfg) c' h' m' l' := by
  obtain ⟨valid, penalties, thresholds⟩ := hok
  have canonical := isCanonicalSeverity_iff.mp (inBounds_of_validateConfig valid).1
  have keys : ∀ other, (configs.set severity cfg).contains other = true ↔
      other ∈ canonicalSeverities := by
    intro other
    rw [OrdMap.contains_set, hc.keys]
    constructor
    · rintro (rfl | ho)
      · exact canonical
      · exact ho
    · exact .inr
  have all_valid : ∀ other cfg', (configs.set severity cfg).get other = some cfg' →
      validateConfig other cfg'.threshold_minutes cfg'.penalty_per_minute cfg'.reward_base =
        .ok () := by
    intro other cfg' hget
    rw [OrdMap.get_set] at hget
    split at hget
    · rename_i e
      obtain rfl := Option.some.inj hget
      rw [e]
      exact valid
    · exact hc.valid other cfg' hget
  obtain ⟨hct, hht, hmt⟩ := hc.thresholds
  obtain ⟨hcp, hhp⟩ := hc.penalties
  have ne_of : ∀ {a b : Symbol}, a ≠ b → (configs.set b cfg).get a = configs.get a :=
    fun hne => OrdMap.get_set_other configs hne cfg
  simp only [canonicalSeverities, List.mem_cons, List.not_mem_nil, or_false] at canonical
  simp [validateCrossSeverityPenaltyOrdering, validateCrossSeverityThresholdOrdering, stored]
    at penalties thresholds
  rcases canonical with rfl | rfl | rfl | rfl
  · simp [checkNeighbour, canonicalSeverities, hc.high] at penalties thresholds
    exact ⟨cfg, h, m, l, OrdMap.get_set_same .., (ne_of (by decide)).trans hc.high,
      (ne_of (by decide)).trans hc.medium, (ne_of (by decide)).trans hc.low, keys, all_valid,
      by omega, by omega⟩
  · simp [checkNeighbour, canonicalSeverities, hc.critical, hc.medium] at penalties thresholds
    exact ⟨c, cfg, m, l, (ne_of (by decide)).trans hc.critical, OrdMap.get_set_same ..,
      (ne_of (by decide)).trans hc.medium, (ne_of (by decide)).trans hc.low, keys, all_valid,
      by omega, by omega⟩
  · simp [checkNeighbour, canonicalSeverities, hc.high, hc.low] at penalties thresholds
    exact ⟨c, h, cfg, l, (ne_of (by decide)).trans hc.critical,
      (ne_of (by decide)).trans hc.high, OrdMap.get_set_same .., (ne_of (by decide)).trans hc.low,
      keys, all_valid, by omega, by omega⟩
  · simp [checkNeighbour, canonicalSeverities, hc.medium] at penalties thresholds
    exact ⟨c, h, m, cfg, (ne_of (by decide)).trans hc.critical,
      (ne_of (by decide)).trans hc.high, (ne_of (by decide)).trans hc.medium,
      OrdMap.get_set_same .., keys, all_valid, by omega, by omega⟩

/-- A canonical map has four entries. -/
theorem Canonical.len (hc : Canonical configs c h m l) : configs.len = 4 := by
  have hperm : configs.keys.Perm canonicalSeverities := by
    refine (List.perm_ext_iff_of_nodup ?_ (by decide)).mpr ?_
    · exact configs.keys_ordered.imp fun hlt => ne_of_lt hlt
    · intro severity
      rw [← hc.keys, OrdMap.mem_keys, OrdMap.contains, Option.isSome_iff_exists]
  rw [← OrdMap.length_keys, hperm.length_eq]
  rfl

theorem Canonical.get (hc : Canonical configs c h m l) {severity : Symbol}
    (canonical : severity ∈ canonicalSeverities) : ∃ cfg, configs.get severity = some cfg :=
  Option.isSome_iff_exists.mp ((hc.keys severity).mpr canonical)

end Update

/-! ## Whole runs -/

/-- The canonical map is stored with its size, on the current version. -/
structure ConfigSound (s : Storage) : Prop where
  version : s .storageVersion = some storageVersion
  canonical : ∃ configs c h m l, s .config = some configs ∧ Canonical configs c h m l ∧
    s .configCount = some configs.len

/-- The custom severities are not canonical, and within the general bounds. -/
def CustomSound (s : Storage) : Prop :=
  ∀ severity cfg, (customConfigs s).get severity = some cfg →
    isCanonicalSeverity severity = false ∧ InBounds cfg

section Steps

variable {f : Frame Address} {s s' : Storage} {call : Call} {r : Reply} {evs : List Event}

theorem configSound_initialized (s : Storage) (admin operator : Address) :
    ConfigSound (initializedStorage s admin operator) :=
  ⟨by simp [initializedStorage], defaultConfigs, _, _, _, _, by simp [initializedStorage],
    canonical_default, by simp [initializedStorage]⟩

theorem ConfigSound.congr (hs : ConfigSound s)
    (version : s' .storageVersion = s .storageVersion) (config : s' .config = s .config)
    (count : s' .configCount = s .configCount) : ConfigSound s' :=
  ⟨version.trans hs.version, by rw [config, count]; exact hs.canonical⟩

/-- `set_config` writes the number of severities that is cached already. -/
theorem ConfigSound.count_set (hs : ConfigSound s) {configs : OrdMap Symbol SLAConfig}
    (stored : s .config = some configs) {severity : Symbol} {cfg : SLAConfig}
    (hok : Acceptable s severity cfg) : s .configCount = some (configs.set severity cfg).len := by
  obtain ⟨configs', c, h, m, l, hstored, hc, count⟩ := hs.canonical
  have hsame : configs = configs' := Option.some.inj (stored.symm.trans hstored)
  subst hsame
  obtain ⟨c', h', m', l', hc'⟩ := hc.set stored hok
  rw [count, hc.len, hc'.len]

/-- What `set_config` leaves of a sound configuration is sound. -/
theorem ConfigSound.update (hs : ConfigSound s) {configs : OrdMap Symbol SLAConfig}
    (stored : s .config = some configs) {severity : Symbol} {cfg : SLAConfig}
    (hok : Acceptable s severity cfg) (version : s' .storageVersion = s .storageVersion)
    (config : s' .config = some (configs.set severity cfg))
    (count : s' .configCount = some (configs.set severity cfg).len) : ConfigSound s' := by
  obtain ⟨configs', c, h, m, l, hstored, hc, -⟩ := hs.canonical
  have hsame : configs = configs' := Option.some.inj (stored.symm.trans hstored)
  subst hsame
  obtain ⟨c', h', m', l', hc'⟩ := hc.set stored hok
  exact ⟨version.trans hs.version, _, c', h', m', l', config, hc', count⟩

theorem Effect.configSound (he : Effect f s call r s' evs) (hs : ConfigSound s) :
    ConfigSound s' := by
  by_cases htouched : call.touches .config = true ∨ call.touches .configCount = true ∨
      call.touches .storageVersion = true
  · cases he <;> simp [Call.touches, History.isHistoryKey, isTelemetryKey] at htouched
    case initialized => exact configSound_initialized s _ _
    case configSet severity threshold penalty reward configs _ _ _ _ valid penalties thresholds
        stored =>
      have hok : Acceptable s severity ⟨threshold, penalty, reward⟩ :=
        ⟨valid, penalties, thresholds⟩
      exact hs.update stored hok (by simp [registered]) (by simp [registered])
        (by simp [registered])
  · simp only [not_or, Bool.not_eq_true] at htouched
    obtain ⟨hconfig, hcount, hversion⟩ := htouched
    exact hs.congr (he.frame hversion) (he.frame hconfig) (he.frame hcount)

/-- What holds of the custom severities, and of every registration that `set_custom_severity`
accepts, goes on holding. -/
theorem Effect.customConfigs_all {P : Symbol → SLAConfig → Prop} (he : Effect f s call r s' evs)
    (hs : ∀ severity cfg, (customConfigs s).get severity = some cfg → P severity cfg)
    (hnew : ∀ caller severity cfg, call = .setCustomSeverity caller severity cfg.threshold_minutes
      cfg.penalty_per_minute cfg.reward_base → ByAdmin f s caller → isConfigFrozen s = false →
        isCanonicalSeverity severity = false → InBounds cfg → P severity cfg) :
    ∀ severity cfg, (customConfigs s').get severity = some cfg → P severity cfg := by
  by_cases htouched : call.touches .customConfig = true
  · cases he <;> simp [Call.touches, History.isHistoryKey, isTelemetryKey] at htouched
    case initialized =>
      intro severity cfg hget
      simp [customConfigs, initializedStorage] at hget
    case customSet severity threshold penalty reward _ _ by_admin thawed custom valid =>
      intro other cfg hget
      simp only [customConfigs, registered, ne_eq, reduceCtorEq, not_false_eq_true,
        Store.set_other, Store.set_same, Option.getD_some, OrdMap.get_set] at hget
      split at hget
      · rename_i e
        obtain rfl := Option.some.inj hget
        rw [e]
        exact hnew _ severity ⟨threshold, penalty, reward⟩ rfl by_admin thawed custom
          (validateGeneralBounds_eq_ok.mp valid)
      · exact hs other cfg hget
    case customRemoved severity _ _ _ =>
      intro other cfg hget
      simp only [customConfigs, Store.set_same, Option.getD_some] at hget
      by_cases e : other = severity
      · rw [e, OrdMap.get_remove_same] at hget
        cases hget
      · rw [OrdMap.get_remove_other _ e] at hget
        exact hs other cfg hget
  · have hframe := he.frame (by simpa using htouched)
    simp only [customConfigs, hframe]
    exact hs

theorem Effect.customSound (he : Effect f s call r s' evs) (hs : CustomSound s) :
    CustomSound s' :=
  he.customConfigs_all hs fun _ _ _ _ _ _ custom bounds => ⟨custom, bounds⟩

end Steps

theorem customSound_after (txs : List ContractTx) : CustomSound (after txs) := by
  refine effect_induction (P := fun _ s => CustomSound s) ?_
    (fun _ _ _ _ _ _ _ hs he _ => he.customSound hs) (fun _ _ _ _ hs _ => hs) txs
  intro severity cfg hget
  simp [customConfigs] at hget

theorem configSound_after {txs : List ContractTx} (hinit : 0 < initializations txs) :
    ConfigSound (after txs) := by
  refine effect_induction (P := fun past s => 0 < past.countP initializes → ConfigSound s)
    (fun h => by simp at h) ?_ ?_ txs hinit
  · intro past s tx r s' evs hc hP he hi hpos
    have hstep := initializes_of_ok hi rfl
    cases hcall : tx.call.isInitialize with
    | true =>
      obtain ⟨admin, operator, -, -, -, -, rfl, -⟩ := he.of_initialize hcall
      exact configSound_initialized s admin operator
    | false =>
      simp only [List.countP_append, List.countP_singleton, hstep, hcall] at hpos
      exact he.configSound (hP (by simpa using hpos))
  · intro past s tx x hP hi hpos
    simp only [List.countP_append, List.countP_singleton, not_initializes_of_refused hi] at hpos
    exact hP (by simpa using hpos)

/-- Once a run has stored anything, the contract is configured. -/
theorem configSound_of_stored {txs : List ContractTx} {k : StorageKey} {v : k.Val}
    (h : after txs k = some v) : ConfigSound (after txs) := by
  rcases Nat.eq_zero_or_pos (initializations txs) with hzero | hpos
  · rw [after_eq_empty hzero] at h
    cases h
  · exact configSound_after hpos

/-! ## Every configuration read succeeds -/

/-- The functions that read the configuration answer, so none of them fails with
`ConfigNotFound` or `NotInitialized`. -/
structure ConfigAnswers (s : Storage) : Prop where
  snapshot : ∃ snapshot, getConfigSnapshot s = .ok snapshot
  versionHash : ∃ hash, computeConfigVersionHash s = .ok hash
  registry : ∀ f env, env.storage = s → ∃ env', recordConfigRegistry.Returns f env () env'
  lookup : ∀ severity ∈ canonicalSeverities, ∃ cfg, loadConfig severity s = .ok cfg ∧
    computeSeverityConfigHash severity s = .ok (severityConfigHash cfg)

theorem Canonical.loadConfig {configs : OrdMap Symbol SLAConfig} {c h m l : SLAConfig}
    (hc : Canonical configs c h m l) {s : Storage} (stored : s .config = some configs)
    {severity : Symbol} (canonical : severity ∈ canonicalSeverities) :
    ∃ cfg, loadConfig severity s = .ok cfg := by
  obtain ⟨cfg, hget⟩ := hc.get canonical
  exact ⟨cfg, by simp [ApexChainx.loadConfig, isCanonicalSeverity_iff.mpr canonical, stored, hget]⟩

theorem foldLoadedConfigs_ok {s : Storage} {severities : List Symbol}
    (h : ∀ severity ∈ severities, ∃ cfg, loadConfig severity s = .ok cfg) (acc : Nat × Nat) :
    ∃ acc', foldLoadedConfigs s acc severities = .ok acc' := by
  induction severities generalizing acc with
  | nil => exact ⟨acc, rfl⟩
  | cons severity rest ih =>
    obtain ⟨cfg, hload⟩ := h severity (List.mem_cons_self ..)
    obtain ⟨acc', hrest⟩ := ih (fun other ho => h other (List.mem_cons_of_mem _ ho))
      (foldConfigHashFields acc cfg)
    exact ⟨acc', by simp [foldLoadedConfigs, hload, hrest]⟩

theorem snapshotEntries_ok {configs : OrdMap Symbol SLAConfig} {severities : List Symbol}
    (h : ∀ severity ∈ severities, ∃ cfg, configs.get severity = some cfg) :
    ∃ entries, snapshotEntries configs severities = .ok entries := by
  induction severities with
  | nil => exact ⟨[], rfl⟩
  | cons severity rest ih =>
    obtain ⟨cfg, hget⟩ := h severity (List.mem_cons_self ..)
    obtain ⟨entries, hrest⟩ := ih fun other ho => h other (List.mem_cons_of_mem _ ho)
    exact ⟨_, by simp only [snapshotEntries, hget, hrest, okOr_some, ok_bind]; rfl⟩

/-- A sound configuration has a bundle hash and a snapshot. -/
theorem ConfigSound.bundle {s : Storage} (hs : ConfigSound s) :
    ∃ hash snapshot, computeConfigVersionHash s = .ok hash ∧
      buildConfigSnapshot s = .ok snapshot := by
  obtain ⟨configs, c, h, m, l, stored, hc, -⟩ := hs.canonical
  obtain ⟨acc, hfold⟩ := foldLoadedConfigs_ok
    (fun severity canonical => hc.loadConfig stored canonical) (1, 1)
  obtain ⟨entries, hentries⟩ := snapshotEntries_ok fun severity canonical => hc.get canonical
  have hhash : ∃ hash, computeConfigVersionHash s = .ok hash :=
    ⟨_, by simp only [computeConfigVersionHash, hfold, ok_bind]; rfl⟩
  have hbuild : ∃ snapshot, buildConfigSnapshot s = .ok snapshot :=
    ⟨_, by simp only [buildConfigSnapshot, stored, hentries, okOr_some, ok_bind]; rfl⟩
  obtain ⟨hash, hhash⟩ := hhash
  obtain ⟨snapshot, hsnapshot⟩ := hbuild
  exact ⟨hash, snapshot, hhash, hsnapshot⟩

theorem ConfigSound.answers {s : Storage} (hs : ConfigSound s) : ConfigAnswers s := by
  obtain ⟨hash, snapshot, hhash, hsnapshot⟩ := hs.bundle
  refine ⟨⟨snapshot, ?_⟩, ⟨hash, hhash⟩, ?_, ?_⟩
  · simp only [getConfigSnapshot, checkVersion, hs.version, okOr_some, ok_bind, hsnapshot]
    rfl
  · intro f env henv
    subst henv
    exact ⟨env.set .configRegistry
      (((env.storage .configRegistry).getD OrdMap.empty).set hash snapshot),
      by simp [recordConfigRegistry, hhash, hsnapshot]⟩
  · obtain ⟨configs, c, h, m, l, stored, hc, -⟩ := hs.canonical
    intro severity canonical
    obtain ⟨cfg, hload⟩ := hc.loadConfig stored canonical
    exact ⟨cfg, hload, by simp only [computeSeverityConfigHash, hload, ok_bind]; rfl⟩

/-- The configuration invariant, over every run in which `initialize` has succeeded: exactly the
four canonical severities, valid and ordered, with their number cached, and no read of the
configuration that fails. -/
theorem config_invariant (txs : List ContractTx) (hinit : 0 < initializations txs) :
    (∃ configs c h m l, after txs .config = some configs ∧ Canonical configs c h m l ∧
      after txs .configCount = some configs.len ∧ configs.len = 4) ∧
    ConfigAnswers (after txs) := by
  have hs := configSound_after hinit
  obtain ⟨configs, c, h, m, l, stored, hc, count⟩ := hs.canonical
  exact ⟨⟨configs, c, h, m, l, stored, hc, count, hc.len⟩, hs.answers⟩

theorem config_invariant_busyRun : ConfigAnswers (after busyRun) :=
  (config_invariant busyRun (by decide)).2

/-- A configuration that a calculation can load is within the general bounds. -/
theorem inBounds_of_loadConfig {s : Storage} (hs : s .config = none ∨ ConfigSound s)
    (hcustom : CustomSound s) {severity : Symbol} {cfg : SLAConfig}
    (h : loadConfig severity s = .ok cfg) : InBounds cfg := by
  unfold loadConfig at h
  split at h
  · simp only [bind_eq_ok, okOr_eq_ok] at h
    obtain ⟨configs, stored, hget⟩ := h
    rcases hs with hnone | hs
    · rw [hnone] at stored
      cases stored
    · obtain ⟨configs', _, _, _, _, stored', hc, -⟩ := hs.canonical
      rw [stored] at stored'
      obtain rfl := Option.some.inj stored'
      exact (inBounds_of_validateConfig (hc.valid severity cfg hget)).2
  · exact (hcustom severity cfg (okOr_eq_ok.mp h)).2

theorem inBounds_after {txs : List ContractTx} {severity : Symbol} {cfg : SLAConfig}
    (h : loadConfig severity (after txs) = .ok cfg) : InBounds cfg := by
  refine inBounds_of_loadConfig ?_ (customSound_after txs) h
  rcases Nat.eq_zero_or_pos (initializations txs) with hzero | hpos
  · exact .inl (by rw [after_eq_empty hzero]; rfl)
  · exact .inr (configSound_after hpos)

end ApexChainx
