import ApexChainx.Proofs.Bundles
import ApexChainx.Proofs.Generations
import ApexChainx.Proofs.SharedCalls

/-!
# The staleness marker

A backend caches the configuration and fetches it again when `get_last_config_update` moves.
`set_config` and `set_custom_severity` stamp the marker; `remove_custom_severity` does not, and
neither does an `initialize` over a configured contract. Between any two points of a run the
marker tells every change of the reads exactly when no such call went through in the run
(`marker_complete_iff`).
-/

namespace ApexChainx

open Host Misc

/-- What a backend may cache of the configuration. -/
structure ConfigReads where
  config : Symbol → Except SLAError SLAConfig
  custom : Symbol → Except SLAError SLAConfig
  snapshot : Except SLAError SLAConfigSnapshot
  customSnapshot : Except SLAError SLAConfigSnapshot
  versionHash : Except SLAError Nat

/-- The configuration reads of a state. -/
def configReads (s : Storage) : ConfigReads where
  config := fun severity => getConfig severity s
  custom := fun severity => getCustomSeverity severity s
  snapshot := getConfigSnapshot s
  customSnapshot := getCustomConfigSnapshot s
  versionHash := getConfigVersionHash s

/-- The configuration changes of a run come at increasing ledger sequences. -/
def Sequenced (txs : List ContractTx) : Prop :=
  ((steps txs).filter changesConfig).Pairwise fun a b => a.tx.frame.sequence < b.tx.frame.sequence

/-- Between any two points of a run whose configuration reads differ, the marker differs. -/
def MarkerComplete (txs : List ContractTx) : Prop :=
  ∀ before later, before ++ later <+: txs →
    configReads (after before) ≠ configReads (after (before ++ later)) →
      getLastConfigUpdate (after before) ≠ getLastConfigUpdate (after (before ++ later))

/-- The call removes a custom severity, or initializes a configured contract again while its
configuration is not the default one. -/
def SilentChange (st : ContractStep) : Prop :=
  succeeds st = true ∧
    ((∃ caller severity, st.tx.call = .removeCustomSeverity caller severity) ∨
      (st.tx.call.isInitialize = true ∧ (st.pre .storageVersion).isSome = true ∧
        (st.pre .config ≠ some defaultConfigs ∨ customConfigs st.pre ≠ OrdMap.empty)))

/-! ## What the reads depend on -/

/-- The part of the storage that the configuration reads see. -/
structure SameConfig (s s' : Storage) : Prop where
  version : s' .storageVersion = s .storageVersion
  config : s' .config = s .config
  custom : customConfigs s' = customConfigs s

theorem SameConfig.trans {s mid s' : Storage} (h : SameConfig s mid) (h' : SameConfig mid s') :
    SameConfig s s' :=
  ⟨h'.version.trans h.version, h'.config.trans h.config, h'.custom.trans h.custom⟩

theorem SameConfig.reads {s s' : Storage} (h : SameConfig s s') :
    configReads s' = configReads s := by
  have hversion : checkVersion s' = checkVersion s := by simp only [checkVersion, h.version]
  have hload : ∀ severity, loadConfig severity s' = loadConfig severity s :=
    loadConfig_of_config h.config h.custom
  have hhash : computeConfigVersionHash s' = computeConfigVersionHash s :=
    computeConfigVersionHash_of_config h.config h.custom
  have hsnapshot : buildConfigSnapshot s' = buildConfigSnapshot s := by
    simp only [buildConfigSnapshot, h.config]
  simp only [configReads, getConfig, getCustomSeverity, getConfigSnapshot, getCustomConfigSnapshot,
    getConfigVersionHash, hversion, hload, hhash, hsnapshot, h.custom]

/-- The marker of a contract of this version. -/
theorem getLastConfigUpdate_of_version {s : Storage}
    (version : s .storageVersion = some storageVersion) :
    getLastConfigUpdate s = .ok (s .lastCfgUpdate) :=
  read_of_version version

theorem getLastConfigUpdate_of_unversioned {s : Storage} (version : s .storageVersion = none) :
    getLastConfigUpdate s = .error .NotInitialized := by
  simp only [getLastConfigUpdate, checkVersion, version]
  rfl

theorem okOr_inj {ε α : Type} {o o' : Option α} {e : ε} (h : okOr o e = okOr o' e) : o = o' := by
  cases o with
  | some a => exact (okOr_eq_ok.mp h.symm).symm
  | none => exact (okOr_eq_error.mp h.symm).1.symm

section Configured

variable {s s' : Storage} (hs : ConfigSound s) (hs' : ConfigSound s')
  (hreads : configReads s = configReads s')

include hs hs' hreads

/-- The custom configurations can be read off. -/
theorem customConfigs_of_reads : customConfigs s = customConfigs s' := by
  refine OrdMap.ext_get fun severity => ?_
  have hcustom := congrFun (congrArg ConfigReads.custom hreads) severity
  simp only [configReads, getCustomSeverity, read_of_version hs.version,
    read_of_version hs'.version] at hcustom
  exact okOr_inj hcustom

/-- The canonical configurations can be read off. -/
theorem config_of_reads : s .config = s' .config := by
  obtain ⟨configs, _, _, _, _, stored, hc, -⟩ := hs.canonical
  obtain ⟨configs', _, _, _, _, stored', hc', -⟩ := hs'.canonical
  have hsame : configs = configs' := by
    refine OrdMap.ext_get fun severity => ?_
    by_cases canonical : severity ∈ canonicalSeverities
    · have hconfig := congrFun (congrArg ConfigReads.config hreads) severity
      simp only [configReads, getConfig, read_of_version hs.version, read_of_version hs'.version,
        loadConfig, isCanonicalSeverity_iff.mpr canonical, if_true, stored, stored', okOr_some,
        ok_bind] at hconfig
      exact okOr_inj hconfig
    · have hnone : ∀ {configs c h m l}, Canonical configs c h m l → configs.get severity = none :=
        fun hc => Option.not_isSome_iff_eq_none.mp fun hsome =>
          canonical ((hc.keys severity).mp hsome)
      rw [hnone hc, hnone hc']
  rw [stored, stored', hsame]

end Configured

/-! ## One call -/

/-- What a call that is no silent change does to the reads and to the marker. -/
inductive Marked (s : Storage) (tx : ContractTx) (s' : Storage) : Prop
  | stamped (changes : changesConfig ⟨s, tx⟩ = true)
      (marker : s' .lastCfgUpdate = some tx.frame.sequence)
  | kept (same : SameConfig s s') (marker : s' .lastCfgUpdate = s .lastCfgUpdate)
  | launched (unversioned : s .storageVersion = none)
      (version : s' .storageVersion = some storageVersion)
      (marker : s' .lastCfgUpdate = s .lastCfgUpdate)

section Steps

variable {s s' : Storage} {tx : ContractTx} {r : Reply} {evs : List Event}

theorem Effect.marked (he : Effect tx.frame s tx.call r s' evs)
    (hi : invoke exec tx s = ⟨s', evs, .ok r⟩)
    (hversion : ∀ version, s .storageVersion = some version → version = storageVersion)
    (hsilent : ¬ SilentChange ⟨s, tx⟩) : Marked s tx s' := by
  have hok := succeeds_of_ok hi
  obtain ⟨c, f⟩ := tx
  by_cases htouched : c.touches .config = true ∨ c.touches .customConfig = true ∨
      c.touches .storageVersion = true
  · cases he <;> simp [Call.touches, History.isHistoryKey, isTelemetryKey] at htouched
    case initialized admin operator _ _ _ =>
      cases hstored : s .storageVersion with
      | none =>
        exact .launched hstored (by simp [initializedStorage]) (by simp [initializedStorage])
      | some version =>
        obtain rfl := hversion version hstored
        have hdefault : s .config = some defaultConfigs ∧ customConfigs s = OrdMap.empty := by
          by_contra hother
          refine hsilent ⟨hok, .inr ⟨rfl, by simp [hstored], ?_⟩⟩
          rwa [not_and_or] at hother
        refine .kept ⟨?_, ?_, ?_⟩ (by simp [initializedStorage])
        · simp [initializedStorage, hstored]
        · simp [initializedStorage, hdefault.1]
        · rw [hdefault.2]
          simp [customConfigs, initializedStorage]
    case configSet => exact .stamped hok (by simp [registered])
    case customSet => exact .stamped hok (by simp [registered])
    case customRemoved => exact (hsilent ⟨hok, .inl ⟨_, _, rfl⟩⟩).elim
  · simp only [not_or, Bool.not_eq_true] at htouched
    obtain ⟨hconfig, hcustom, hstored⟩ := htouched
    have hmarker : c.touches .lastCfgUpdate = false := by
      cases c <;> simp_all [Call.touches, History.isHistoryKey, isTelemetryKey]
    exact .kept ⟨he.frame hstored, he.frame hconfig, customConfigs_of_key (he.frame hcustom)⟩
      (he.frame hmarker)

end Steps

/-- The version of a run is the current one, once there is one. -/
theorem version_after {txs : List ContractTx} {version : Nat}
    (h : after txs .storageVersion = some version) : version = storageVersion := by
  have hcurrent := (configSound_of_stored h).version
  rw [h] at hcurrent
  exact Option.some.inj hcurrent

/-- A silent change changes the reads and keeps the marker. -/
theorem SilentChange.unmarked {txs : List ContractTx} {tx : ContractTx}
    (h : SilentChange ⟨after txs, tx⟩) :
    configReads (after txs) ≠ configReads (after (txs ++ [tx])) ∧
      getLastConfigUpdate (after txs) = getLastConfigUpdate (after (txs ++ [tx])) := by
  obtain ⟨hok, hcases⟩ := h
  obtain ⟨r, s', evs, he, hi⟩ := effect_of_succeeds (current_after txs) hok
  have hend : after (txs ++ [tx]) = s' := by rw [after_concat, hi]
  obtain ⟨c, f⟩ := tx
  have hnext : ConfigSound (after txs) → ConfigSound s' := he.configSound
  have hmarked : ConfigSound (after txs) → c.touches .lastCfgUpdate = false →
      getLastConfigUpdate (after txs) = getLastConfigUpdate s' := by
    intro hs hkept
    rw [getLastConfigUpdate_of_version hs.version,
      getLastConfigUpdate_of_version (hnext hs).version, he.frame hkept]
  rw [hend]
  rcases hcases with ⟨caller, severity, rfl⟩ | ⟨hinit, hversion, hother⟩
  · cases he with
    | customRemoved by_admin thawed present =>
      have hs := configSound_of_stored by_admin.version
      refine ⟨?_, hmarked hs rfl⟩
      intro hreads
      have hcustom := customConfigs_of_reads hs (hnext hs) hreads
      rw [hcustom] at present
      simp [customConfigs, OrdMap.contains] at present
  · obtain ⟨version, hstored⟩ := Option.isSome_iff_exists.mp hversion
    have hs := configSound_of_stored hstored
    obtain ⟨admin, operator, rfl, -, -, -, rfl, -⟩ := he.of_initialize hinit
    refine ⟨?_, hmarked hs rfl⟩
    intro hreads
    have hs' := configSound_initialized (after txs) admin operator
    rcases hother with hconfig | hcustom
    · refine hconfig ((config_of_reads hs hs' hreads).trans ?_)
      simp [initializedStorage]
    · refine hcustom ((customConfigs_of_reads hs hs' hreads).trans ?_)
      simp [customConfigs, initializedStorage]

/-! ## Two points of a run -/

/-- What a later state says of an earlier one when no silent change lies between them. -/
inductive MarkerBetween (s s' : Storage) : Prop
  | same (same : SameConfig s s') (marker : s' .lastCfgUpdate = s .lastCfgUpdate)
  | launched (unversioned : s .storageVersion = none)
      (version : s' .storageVersion = some storageVersion)
  | newer {n : Nat} (marker : s' .lastCfgUpdate = some n)
      (past : ∀ m, s .lastCfgUpdate = some m → m < n)

theorem MarkerBetween.step {p s s' : Storage} {tx : ContractTx} (h : MarkerBetween p s)
    (hm : Marked s tx s') (hlater : changesConfig ⟨s, tx⟩ = true → ∀ m, p .lastCfgUpdate = some m →
      m < tx.frame.sequence) : MarkerBetween p s' := by
  cases hm with
  | stamped changes marker => exact .newer marker (hlater changes)
  | kept same marker =>
    cases h with
    | same before marker' => exact .same (before.trans same) (marker.trans marker')
    | launched unversioned version => exact .launched unversioned (same.version.trans version)
    | newer marker' past => exact .newer (marker.trans marker') past
  | launched unversioned version marker =>
    cases h with
    | same before _ => exact .launched (before.version.symm.trans unversioned) version
    | launched unversioned' _ => exact .launched unversioned' version
    | newer marker' past => exact .newer (marker.trans marker') past

/-- The marker is the sequence of a configuration change of the run. -/
theorem marker_of_change {txs : List ContractTx} {m : Nat}
    (h : after txs .lastCfgUpdate = some m) :
    ∃ st ∈ steps txs, changesConfig st = true ∧ st.tx.frame.sequence = m := by
  refine effect_induction (P := fun past s => s .lastCfgUpdate = some m →
    ∃ st ∈ past, changesConfig st = true ∧ st.tx.frame.sequence = m) ?_ ?_ ?_ txs h
  · intro hnone
    cases hnone
  · rintro past s tx r s' evs - ih he hi hmarker
    by_cases htouched : tx.call.touches .lastCfgUpdate = true
    · have hok := succeeds_of_ok hi
      obtain ⟨c, f⟩ := tx
      refine ⟨⟨s, ⟨c, f⟩⟩, by simp, ?_⟩
      cases he <;> simp [Call.touches, History.isHistoryKey, isTelemetryKey] at htouched
      case configSet => exact ⟨hok, by simpa [registered] using hmarker⟩
      case customSet => exact ⟨hok, by simpa [registered] using hmarker⟩
    · rw [he.frame (by simpa using htouched)] at hmarker
      obtain ⟨st, hst, hchange⟩ := ih hmarker
      exact ⟨st, List.mem_append_left _ hst, hchange⟩
  · rintro past s tx x ih - hmarker
    obtain ⟨st, hst, hchange⟩ := ih hmarker
    exact ⟨st, List.mem_append_left _ hst, hchange⟩

theorem Sequenced.front {before txs : List ContractTx} (h : Sequenced txs)
    (hpre : before <+: txs) : Sequenced before := by
  obtain ⟨later, rfl⟩ := hpre
  rw [Sequenced, steps, trace_append, List.filter_append] at h
  exact (List.pairwise_append.mp h).1

/-- A configuration change comes later than the marker it finds. -/
theorem Sequenced.marker_lt {before later : List ContractTx} {tx : ContractTx}
    (h : Sequenced (before ++ later ++ [tx]))
    (hchange : changesConfig ⟨after (before ++ later), tx⟩ = true) {m : Nat}
    (hmarker : after before .lastCfgUpdate = some m) : m < tx.frame.sequence := by
  obtain ⟨st, hst, hpast, rfl⟩ := marker_of_change hmarker
  rw [Sequenced, steps, trace_append, List.filter_append] at h
  refine (List.pairwise_append.mp h).2.2 st ?_ ⟨after (before ++ later), tx⟩ ?_
  · refine List.mem_filter.mpr ⟨?_, hpast⟩
    rw [trace_append]
    exact List.mem_append_left _ hst
  · exact List.mem_filter.mpr ⟨List.mem_cons_self .., hchange⟩

theorem markerBetween_stretch {before later : List ContractTx} (hseq : Sequenced (before ++ later))
    (hsilent : ∀ st ∈ trace exec (after before) later, ¬ SilentChange st) :
    MarkerBetween (after before) (after (before ++ later)) := by
  refine stretch_induction before (P := fun later s => Sequenced (before ++ later) →
    (∀ st ∈ trace exec (after before) later, ¬ SilentChange st) → MarkerBetween (after before) s)
    ?_ ?_ ?_ later hseq hsilent
  · intro _ _
    exact .same ⟨rfl, rfl, rfl⟩ rfl
  · intro later tx r s' evs ih he hi hseq hsilent
    rw [trace_after_concat] at hsilent
    rw [← List.append_assoc] at hseq
    have hpast := ih (hseq.front (List.prefix_append ..))
      fun st hst => hsilent st (List.mem_append_left _ hst)
    have hmarked := he.marked hi (fun _ => version_after)
      (hsilent _ (List.mem_append_right _ (List.mem_cons_self ..)))
    exact hpast.step hmarked fun hchange m hmarker => hseq.marker_lt hchange hmarker
  · intro later tx x ih hi hseq hsilent
    rw [trace_after_concat] at hsilent
    rw [← List.append_assoc] at hseq
    exact ih (hseq.front (List.prefix_append ..))
      fun st hst => hsilent st (List.mem_append_left _ hst)

theorem MarkerBetween.signals {before txs : List ContractTx}
    (h : MarkerBetween (after before) (after txs))
    (hreads : configReads (after before) ≠ configReads (after txs)) :
    getLastConfigUpdate (after before) ≠ getLastConfigUpdate (after txs) := by
  cases h with
  | same same _ => exact absurd same.reads.symm hreads
  | launched unversioned version =>
    rw [getLastConfigUpdate_of_unversioned unversioned, getLastConfigUpdate_of_version version]
    exact fun heq => by cases heq
  | newer marker past =>
    rw [getLastConfigUpdate_of_version (configSound_of_stored marker).version]
    cases hversion : after before .storageVersion with
    | none =>
      rw [getLastConfigUpdate_of_unversioned hversion]
      exact fun heq => by cases heq
    | some version =>
      obtain rfl := version_after hversion
      rw [getLastConfigUpdate_of_version hversion, marker]
      intro heq
      exact Nat.lt_irrefl _ (past _ (Except.ok.inj heq))

/-- How far the marker can be trusted over a run: between any two points exactly when no call of
the run is a silent change, and every other call that changes the reads of a configured contract
stamps its ledger sequence. -/
structure MarkerLaw (txs : List ContractTx) : Prop where
  complete_iff : MarkerComplete txs ↔ ∀ st ∈ steps txs, ¬ SilentChange st
  stamps : ∀ st ∈ steps txs, ¬ SilentChange st → (st.pre .storageVersion).isSome = true →
    configReads st.pre ≠ configReads (st.post exec) →
      getLastConfigUpdate (st.post exec) = .ok (some st.tx.frame.sequence)

theorem marker_complete_iff (txs : List ContractTx) (hseq : Sequenced txs) : MarkerLaw txs where
  complete_iff := by
    constructor
    · intro hcomplete st hst hsilent
      obtain ⟨before, tx, hpre, rfl⟩ := mem_trace.mp hst
      obtain ⟨hreads, hmarker⟩ := SilentChange.unmarked hsilent
      exact hcomplete before [tx] hpre hreads hmarker
    · intro hsilent before later hpre hreads
      refine (markerBetween_stretch (hseq.front hpre) fun st hst => hsilent st ?_).signals hreads
      refine mem_trace_of_front ?_ hpre
      rw [trace_append]
      exact List.mem_append_right _ hst
  stamps := by
    intro st hst hsilent hversion hreads
    obtain ⟨before, tx, -, rfl⟩ := mem_trace.mp hst
    obtain ⟨version, hstored⟩ := Option.isSome_iff_exists.mp hversion
    have hs : ConfigSound (after before) := configSound_of_stored hstored
    rcases invoke_effect (current_after before) tx with ⟨r, s', evs, he, hi⟩ | ⟨x, hi⟩
    · have hpost := post_of_invoke hi
      have hmarked := he.marked hi (fun _ => version_after) hsilent
      change getLastConfigUpdate (Step.post exec ⟨after before, tx⟩) = _
      change configReads (after before) ≠ configReads (Step.post exec ⟨after before, tx⟩) at hreads
      rw [hpost] at hreads ⊢
      cases hmarked with
      | stamped _ marker =>
        rw [getLastConfigUpdate_of_version (he.configSound hs).version, marker]
      | kept same _ => exact absurd same.reads.symm hreads
      | launched unversioned _ _ =>
        rw [hs.version] at unversioned
        cases unversioned
    · refine absurd ?_ hreads
      exact congrArg configReads (post_of_invoke hi).symm

/-- A run that registers a custom severity and removes it again. -/
def removedRun : List ContractTx :=
  launch ++
    [⟨.setCustomSeverity ⟨1⟩ (symbolShort "info") 240 5 500, ⟨[⟨1⟩], 2, 2⟩⟩,
      ⟨.removeCustomSeverity ⟨1⟩ (symbolShort "info"), ⟨[⟨1⟩], 3, 3⟩⟩]

theorem sequenced_removedRun : Sequenced removedRun := by
  unfold Sequenced
  decide

theorem marker_complete_iff_removedRun : MarkerLaw removedRun :=
  marker_complete_iff removedRun sequenced_removedRun

/-- The removal changes the bundle hash and leaves the marker. -/
theorem removedRun_not_marked :
    ¬ ∀ txs, Sequenced txs → MarkerComplete txs := by
  intro h
  have hreads : getConfigVersionHash (after (removedRun.take 2)) ≠
      getConfigVersionHash (after (removedRun.take 2 ++ removedRun.drop 2)) := by decide
  have hmarker : getLastConfigUpdate (after (removedRun.take 2)) =
      getLastConfigUpdate (after (removedRun.take 2 ++ removedRun.drop 2)) := by decide
  refine h removedRun sequenced_removedRun (removedRun.take 2) (removedRun.drop 2) ?_ ?_ hmarker
  · exact List.prefix_rfl
  · exact fun heq => hreads (congrArg ConfigReads.versionHash heq)

end ApexChainx
