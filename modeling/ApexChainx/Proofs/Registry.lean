import ApexChainx.Proofs.Staleness

/-!
# The configuration registry

`set_config` and `set_custom_severity` register the snapshot they leave under the bundle hash they
leave, so the registry of a run is the map its registrations write (`registry_after`).
`remove_custom_severity` leaves another bundle and registers nothing. While no two bundles of a
run with different canonical parts collide, the hash in force resolves along the run when every
removal brings back a bundle that was registered before, and, while no two different bundles
collide, only then (`registry_resolves_iff`).
-/

namespace ApexChainx

open Host Misc

/-! ## The registrations of a run -/

/-- The call updated a configuration and registered the bundle it left. -/
def recordsBundle (st : ContractStep) : Bool :=
  match st.tx.call with
  | .setConfig _ _ _ _ _ | .setCustomSeverity _ _ _ _ _ => succeeds st
  | _ => false

/-- The call removed a custom severity. -/
def removesCustom (st : ContractStep) : Bool :=
  match st.tx.call with
  | .removeCustomSeverity _ _ => succeeds st
  | _ => false

/-- The hash and the snapshot a call registers: those of the state it leaves. -/
def registration (st : ContractStep) : Option (Nat × SLAConfigSnapshot) :=
  if recordsBundle st then
    match computeConfigVersionHash (st.post exec), buildConfigSnapshot (st.post exec) with
    | .ok hash, .ok snapshot => some (hash, snapshot)
    | _, _ => none
  else none

/-- The registrations of a run, in order. -/
def registrations (txs : List ContractTx) : List (Nat × SLAConfigSnapshot) :=
  (steps txs).filterMap registration

/-- The registry of a state. -/
def registryOf (s : Storage) : OrdMap Nat SLAConfigSnapshot :=
  (s .configRegistry).getD OrdMap.empty

/-- A configuration change either registers the bundle it leaves or removes a custom severity. -/
theorem changesConfig_eq (st : ContractStep) :
    changesConfig st = (recordsBundle st || removesCustom st) := by
  obtain ⟨s, call, f⟩ := st
  cases call <;> simp [changesConfig, recordsBundle, removesCustom]

theorem succeeds_of_changes {st : ContractStep} (h : changesConfig st = true) :
    succeeds st = true := by
  obtain ⟨s, call, f⟩ := st
  cases call <;> first | exact h | cases h

theorem succeeds_of_records {st : ContractStep} (h : recordsBundle st = true) :
    succeeds st = true :=
  succeeds_of_changes (by rw [changesConfig_eq, h, Bool.true_or])

section Steps

variable {f : Frame Address} {s s' : Storage} {env' : ContractEnv} {u : Unit} {tx : ContractTx}
  {r : Reply} {evs : List Event}

/-- The bundle of `s'` is registered in it, over the registry of `s`. -/
structure Registers (s s' : Storage) (hash : Nat) (snapshot : SLAConfigSnapshot) : Prop where
  hashed : computeConfigVersionHash s' = .ok hash
  built : buildConfigSnapshot s' = .ok snapshot
  registry : registryOf s' = (registryOf s).set hash snapshot

/-- `record_config_registry` changes neither the bundle nor the snapshot. -/
theorem registers_of_recorded {hash : Nat} {snapshot : SLAConfigSnapshot}
    (hhash : computeConfigVersionHash s' = .ok hash)
    (hsnapshot : buildConfigSnapshot s' = .ok snapshot) :
    Registers s (s'.set .configRegistry ((registryOf s).set hash snapshot)) hash snapshot where
  hashed := by
    rw [← hhash]
    exact computeConfigVersionHash_of_config (by simp) (by simp [customConfigs])
  built := by
    rw [← hsnapshot]
    simp [buildConfigSnapshot]
  registry := by simp [registryOf]

theorem setConfig_registers {caller : Address} {severity : Symbol} {threshold : Nat}
    {penalty reward : Int}
    (h : (setConfig caller severity threshold penalty reward).Returns f ⟨s, [], []⟩ u env') :
    ∃ hash snapshot, Registers s env'.storage hash snapshot := by
  simp [setConfig] at h
  obtain ⟨-, -, -, -, -, -, -, -, configs, -, hash, hhash, snapshot, hsnapshot, rfl⟩ := h
  exact ⟨hash, snapshot, registers_of_recorded hhash hsnapshot⟩

theorem setCustomSeverity_registers {caller : Address} {severity : Symbol} {threshold : Nat}
    {penalty reward : Int}
    (h : (setCustomSeverity caller severity threshold penalty reward).Returns f ⟨s, [], []⟩ u
      env') : ∃ hash snapshot, Registers s env'.storage hash snapshot := by
  simp [setCustomSeverity] at h
  obtain ⟨-, -, -, -, -, -, -, hash, hhash, snapshot, hsnapshot, rfl⟩ := h
  exact ⟨hash, snapshot, registers_of_recorded hhash hsnapshot⟩

/-- A call that records a bundle registers what it leaves. -/
theorem registers_of_records (h : recordsBundle ⟨s, tx⟩ = true) :
    ∃ hash snapshot, Registers s (Step.post exec ⟨s, tx⟩) hash snapshot ∧
      registration ⟨s, tx⟩ = some (hash, snapshot) := by
  have hregisters : ∃ hash snapshot, Registers s (Step.post exec ⟨s, tx⟩) hash snapshot := by
    obtain ⟨r, env', hreturns, hi⟩ := returns_of_succeeds (succeeds_of_records h)
    obtain ⟨call, f⟩ := tx
    rw [post_of_invoke hi]
    cases call <;> simp only [recordsBundle, Bool.false_eq_true] at h
    case setConfig =>
      obtain ⟨-, hset⟩ := returns_replyUnit.mp hreturns
      exact setConfig_registers hset
    case setCustomSeverity =>
      obtain ⟨-, hset⟩ := returns_replyUnit.mp hreturns
      exact setCustomSeverity_registers hset
  obtain ⟨hash, snapshot, hregisters⟩ := hregisters
  refine ⟨hash, snapshot, hregisters, ?_⟩
  simp only [registration, h, if_true, hregisters.hashed, hregisters.built]

/-- The other calls keep the registry. -/
theorem Effect.registry_eq (he : Effect tx.frame s tx.call r s' evs)
    (hi : invoke exec tx s = ⟨s', evs, .ok r⟩) (h : recordsBundle ⟨s, tx⟩ = false) :
    registryOf s' = registryOf s := by
  have hok := succeeds_of_ok hi
  have htouched : tx.call.touches .configRegistry = false := by
    obtain ⟨call, f⟩ := tx
    cases call <;>
      simp_all [recordsBundle, Call.touches, History.isHistoryKey, isTelemetryKey]
  simp only [registryOf, he.frame htouched]

end Steps

/-- The registry of a run is what its registrations write. -/
theorem registry_after (txs : List ContractTx) :
    registryOf (after txs) = OrdMap.ofWrites (registrations txs) := by
  refine effect_induction (P := fun past s =>
    registryOf s = OrdMap.ofWrites (past.filterMap registration)) ?_ ?_ ?_ txs
  · rfl
  · rintro past s tx r s' evs - ih he hi
    cases hrecords : recordsBundle ⟨s, tx⟩ with
    | true =>
      obtain ⟨hash, snapshot, hregisters, hregistration⟩ := registers_of_records hrecords
      have hregistry := hregisters.registry
      rw [post_of_invoke hi] at hregistry
      rw [List.filterMap_append, List.filterMap_cons_some hregistration, List.filterMap_nil,
        OrdMap.ofWrites_concat, hregistry, ih]
    | false =>
      have hnone : registration ⟨s, tx⟩ = none := by simp [registration, hrecords]
      rw [List.filterMap_append, List.filterMap_cons_none hnone, List.filterMap_nil,
        List.append_nil, he.registry_eq hi hrecords, ih]
  · rintro past s tx x ih hi
    have hnone : registration ⟨s, tx⟩ = none := by
      have hrecords : recordsBundle ⟨s, tx⟩ = false := by
        by_contra hsome
        have hok := succeeds_of_records (eq_true_of_ne_false hsome)
        rw [not_succeeds_of_refused hi] at hok
        cases hok
      simp [registration, hrecords]
    rw [List.filterMap_append, List.filterMap_cons_none hnone, List.filterMap_nil,
      List.append_nil, ih]

/-! ## Resolving a hash -/

/-- The hash in force leads to the canonical configuration in force. -/
def Resolves (s : Storage) : Prop :=
  ∃ hash snapshot, getConfigVersionHash s = .ok hash ∧ getConfigSnapshot s = .ok snapshot ∧
    getConfigSnapshotByVersion hash s = .ok (some snapshot)

/-- A configuration change succeeded since the last `initialize`. -/
def configChanged (sts : List ContractStep) : Bool :=
  sts.foldl (fun changed st => if initializes st then false else changed || changesConfig st)
    false

/-- No two bundles of the run with different canonical parts have the same hash. -/
def CollisionFree (txs : List ContractTx) : Prop :=
  ∀ p q, p <+: txs → q <+: txs → ∀ hash, getConfigVersionHash (after p) = .ok hash →
    getConfigVersionHash (after q) = .ok hash → after p .config = after q .config

/-- All along a run the hash in force resolves once the configuration was changed, and a hash
that resolved goes on resolving to the same snapshot. -/
structure RegistryResolves (txs : List ContractTx) : Prop where
  inForce : ∀ before, before <+: txs → configChanged (steps before) = true →
    Resolves (after before)
  kept : ∀ before later, before ++ later <+: txs → ∀ hash snapshot,
    getConfigSnapshotByVersion hash (after before) = .ok (some snapshot) →
      getConfigSnapshotByVersion hash (after (before ++ later)) = .ok (some snapshot)

/-- The guards of `remove_custom_severity` pass. -/
structure Removable (f : Frame Address) (s : Storage) (caller : Address) (severity : Symbol) :
    Prop where
  by_admin : ByAdmin f s caller
  thawed : isConfigFrozen s = false
  present : (customConfigs s).contains severity = true

/-- The state without a custom severity. -/
def withoutCustom (s : Storage) (severity : Symbol) : Storage :=
  s.set .customConfig ((customConfigs s).remove severity)

/-- The call is a removal of a custom severity that passes its guards, and no earlier update of
the run left the bundle that remains without it. -/
def LosesBundle (txs : List ContractTx) (tx : ContractTx) : Prop :=
  ∃ caller severity, tx.call = .removeCustomSeverity caller severity ∧
    Removable tx.frame (after txs) caller severity ∧
      ∀ front last, front ++ [last] <+: txs → recordsBundle ⟨after front, last⟩ = true →
        bundleFields (after (front ++ [last])) ≠
          bundleFields (withoutCustom (after txs) severity)

/-- Every removal of the run brings back the bundle of an earlier update. -/
def KeepsBundles (txs : List ContractTx) : Prop :=
  ∀ before tx, before ++ [tx] <+: txs → ¬ LosesBundle before tx

/-- No two different bundles of the run have the same hash. -/
def BundlesSeparate (txs : List ContractTx) : Prop :=
  ∀ p q, p <+: txs → q <+: txs → ∀ hash, getConfigVersionHash (after p) = .ok hash →
    getConfigVersionHash (after q) = .ok hash → bundleFields (after p) = bundleFields (after q)

section Removal

variable {f : Frame Address} {s : Storage} {caller : Address} {severity : Symbol}

theorem removeCustomSeverity_returns_iff {u : Unit} {env' : ContractEnv} :
    (removeCustomSeverity caller severity).Returns f ⟨s, [], []⟩ u env' ↔
      Removable f s caller severity ∧
        env' = (Env.set ⟨s, [], []⟩ .customConfig ((customConfigs s).remove severity)).publish
          (.configRem severity) := by
  simp [removeCustomSeverity]
  constructor
  · rintro ⟨version, signed, standing, admin, thawed, present, rfl⟩
    exact ⟨⟨⟨version, signed, standing, admin⟩, thawed, present⟩, rfl⟩
  · rintro ⟨⟨⟨version, signed, standing, admin⟩, thawed, present⟩, rfl⟩
    exact ⟨version, signed, standing, admin, thawed, present, rfl⟩

/-- A removal whose guards pass succeeds and leaves the state without the severity. -/
theorem Removable.removes (h : Removable f s caller severity) :
    removesCustom ⟨s, ⟨.removeCustomSeverity caller severity, f⟩⟩ = true ∧
      Step.post exec ⟨s, ⟨.removeCustomSeverity caller severity, f⟩⟩ =
        withoutCustom s severity := by
  have hremoves : removesCustom ⟨s, ⟨.removeCustomSeverity caller severity, f⟩⟩ = true :=
    succeeds_of_returns (returns_replyUnit.mpr
      ⟨rfl, removeCustomSeverity_returns_iff.mpr ⟨h, rfl⟩⟩)
  obtain ⟨r, env', hreturns, hi⟩ := returns_of_succeeds hremoves
  obtain ⟨-, rfl⟩ := removeCustomSeverity_returns_iff.mp (returns_replyUnit.mp hreturns).2
  exact ⟨hremoves, post_of_invoke hi⟩

/-- The guards of a removal that succeeds passed. -/
theorem removable_of_removes {tx : ContractTx} (h : removesCustom ⟨s, tx⟩ = true) :
    ∃ caller severity, tx.call = .removeCustomSeverity caller severity ∧
      Removable tx.frame s caller severity := by
  obtain ⟨r, env', hreturns, -⟩ := returns_of_succeeds (succeeds_of_changes
    (by rw [changesConfig_eq, h, Bool.or_true]))
  obtain ⟨call, f⟩ := tx
  cases call <;> simp only [removesCustom, Bool.false_eq_true] at h
  case removeCustomSeverity caller severity =>
    obtain ⟨-, hreturns⟩ := returns_replyUnit.mp hreturns
    exact ⟨caller, severity, rfl, (removeCustomSeverity_returns_iff.mp hreturns).1⟩

end Removal

theorem registrations_append (txs later : List ContractTx) :
    registrations (txs ++ later) =
      registrations txs ++ (trace exec (after txs) later).filterMap registration := by
  simp only [registrations, steps, trace_append, List.filterMap_append, after]

theorem configChanged_concat (txs : List ContractTx) (tx : ContractTx) :
    configChanged (steps (txs ++ [tx])) =
      if initializes ⟨after txs, tx⟩ then false
      else configChanged (steps txs) || changesConfig ⟨after txs, tx⟩ := by
  simp only [configChanged, steps, trace_append, List.foldl_append]
  rfl

/-- Once a run has a version it keeps it. -/
theorem version_of_front {p txs : List ContractTx} (hpre : p <+: txs) {version : Nat}
    (h : after p .storageVersion = some version) :
    after txs .storageVersion = some storageVersion := by
  have hpos : 0 < initializations p := by
    refine Nat.pos_of_ne_zero ?_
    intro hzero
    rw [after_eq_empty hzero] at h
    cases h
  exact (configSound_after (Nat.lt_of_lt_of_le hpos (initializations_le hpre))).version

/-- A configuration change is made by the admin of a contract of this version. -/
theorem version_of_changes {txs : List ContractTx} {tx : ContractTx}
    (h : changesConfig ⟨after txs, tx⟩ = true) :
    after txs .storageVersion = some storageVersion := by
  obtain ⟨r, s', evs, he, -⟩ := effect_of_succeeds (current_after txs) (succeeds_of_changes h)
  obtain ⟨call, f⟩ := tx
  cases call <;> simp only [changesConfig, Bool.false_eq_true] at h
  case setConfig =>
    cases he with
    | configSet by_admin => exact by_admin.version
  case setCustomSeverity =>
    cases he with
    | customSet by_admin => exact by_admin.version
  case removeCustomSeverity =>
    cases he with
    | customRemoved by_admin => exact by_admin.version

section Lookup

variable {txs : List ContractTx} {entry : Nat × SLAConfigSnapshot}

/-- What an update of the run leaves is registered. -/
theorem registration_of_records {front : List ContractTx} {last : ContractTx}
    (hpre : front ++ [last] <+: txs) (hrecords : recordsBundle ⟨after front, last⟩ = true) :
    ∃ snapshot, (rollingHash (bundleFields (after (front ++ [last]))), snapshot) ∈
      registrations txs := by
  obtain ⟨hash, snapshot, hregisters, hsome⟩ := registers_of_records hrecords
  have hchanges : changesConfig ⟨after front, last⟩ = true := by
    rw [changesConfig_eq, hrecords, Bool.true_or]
  have hs : ConfigSound (after (front ++ [last])) :=
    configSound_of_stored (version_of_front (List.prefix_append ..) (version_of_changes hchanges))
  have hhash : computeConfigVersionHash (after (front ++ [last])) = .ok hash := by
    rw [after_concat]
    exact hregisters.hashed
  have hfields := hs.versionHash
  rw [getConfigVersionHash, read_of_version hs.version, hhash] at hfields
  rw [← Except.ok.inj hfields]
  exact ⟨snapshot, List.mem_filterMap.mpr ⟨_, mem_trace.mpr ⟨front, last, hpre, rfl⟩, hsome⟩⟩

/-- What is registered is the bundle that an earlier update of the run left. -/
theorem bundle_of_registration (h : entry ∈ registrations txs) :
    ∃ front last, front ++ [last] <+: txs ∧ recordsBundle ⟨after front, last⟩ = true ∧
      getConfigVersionHash (after (front ++ [last])) = .ok entry.1 ∧
      buildConfigSnapshot (after (front ++ [last])) = .ok entry.2 ∧
      after (front ++ [last]) .storageVersion = some storageVersion := by
  obtain ⟨st, hst, hregistration⟩ := List.mem_filterMap.mp h
  obtain ⟨before, tx, hpre, rfl⟩ := mem_trace.mp hst
  have hrecords : recordsBundle ⟨after before, tx⟩ = true := by
    by_contra hnot
    simp only [registration, after] at hregistration hnot
    rw [if_neg hnot] at hregistration
    cases hregistration
  obtain ⟨hash, snapshot, hregisters, hsome⟩ := registers_of_records hrecords
  obtain rfl : (hash, snapshot) = entry := Option.some.inj (hsome.symm.trans hregistration)
  have hpost : Step.post exec ⟨after before, tx⟩ = after (before ++ [tx]) :=
    (after_concat before tx).symm
  have hchanges : changesConfig ⟨after before, tx⟩ = true := by
    rw [changesConfig_eq, hrecords, Bool.true_or]
  have hversion : after (before ++ [tx]) .storageVersion = some storageVersion :=
    version_of_front (List.prefix_append ..) (version_of_changes hchanges)
  rw [hpost] at hregisters
  refine ⟨before, tx, hpre, hrecords, ?_, hregisters.built, hversion⟩
  rw [getConfigVersionHash, read_of_version hversion]
  exact hregisters.hashed

/-- Equal hashes are registered with equal snapshots. -/
theorem registrations_agree (hfree : CollisionFree txs) {before : List ContractTx}
    (hpre : before <+: txs) :
    ∀ a ∈ registrations before, ∀ b ∈ registrations before, a.1 = b.1 → a.2 = b.2 := by
  intro a ha b hb heq
  obtain ⟨front, last, hfront, -, hhash, hbuilt, -⟩ := bundle_of_registration ha
  obtain ⟨front', last', hfront', -, hhash', hbuilt', -⟩ := bundle_of_registration hb
  have hconfig := hfree _ _ (hfront.trans hpre) (hfront'.trans hpre) a.1 hhash (heq ▸ hhash')
  have hsame : buildConfigSnapshot (after (front ++ [last])) =
      buildConfigSnapshot (after (front' ++ [last'])) := by
    simp only [buildConfigSnapshot, hconfig]
  exact Except.ok.inj (hbuilt.symm.trans (hsame.trans hbuilt'))

/-- The lookup finds what was registered. -/
theorem lookup_iff (hfree : CollisionFree txs) {before : List ContractTx} (hpre : before <+: txs)
    {hash : Nat} {snapshot : SLAConfigSnapshot} :
    getConfigSnapshotByVersion hash (after before) = .ok (some snapshot) ↔
      (hash, snapshot) ∈ registrations before := by
  have hget : (registryOf (after before)).get hash = some snapshot ↔
      (hash, snapshot) ∈ registrations before := by
    rw [registry_after]
    exact OrdMap.get_ofWrites (registrations_agree hfree hpre)
  constructor
  · intro hlookup
    simp only [getConfigSnapshotByVersion, bind_eq_ok, pure_eq_ok] at hlookup
    obtain ⟨-, -, hsome⟩ := hlookup
    exact hget.mp hsome
  · intro hmem
    obtain ⟨front, last, hfront, -, -, -, hversion⟩ := bundle_of_registration hmem
    rw [getConfigSnapshotByVersion, read_of_version (version_of_front hfront hversion)]
    exact congrArg Except.ok (hget.mpr hmem)

theorem KeepsBundles.front {front : List ContractTx} (h : KeepsBundles txs)
    (hpre : front <+: txs) : KeepsBundles front :=
  fun before tx hbefore => h before tx (hbefore.trans hpre)

/-- When no removal loses the bundle, the hash in force is a registered one. -/
theorem registered_after (hkeeps : KeepsBundles txs)
    (hchanged : configChanged (steps txs) = true) :
    ∃ entry ∈ registrations txs, computeConfigVersionHash (after txs) = .ok entry.1 := by
  refine after_induction (P := fun txs s =>
    KeepsBundles txs → configChanged (steps txs) = true →
      ∃ entry ∈ registrations txs, computeConfigVersionHash s = .ok entry.1)
    ?_ ?_ ?_ txs hkeeps hchanged
  · intro _ hnone
    cases hnone
  · intro txs tx r s' evs ih he hi hkeeps hchanged
    have hend : after (txs ++ [tx]) = s' := by rw [after_concat, hi]
    have hpast := ih (hkeeps.front (List.prefix_append ..))
    rw [configChanged_concat] at hchanged
    split at hchanged
    · cases hchanged
    rename_i hinit
    rw [registrations_append]
    cases hrecords : recordsBundle ⟨after txs, tx⟩ with
    | true =>
      obtain ⟨hash, snapshot, hregisters, hsome⟩ := registers_of_records hrecords
      rw [post_of_invoke hi] at hregisters
      refine ⟨(hash, snapshot), List.mem_append_right _ ?_, hregisters.hashed⟩
      exact List.mem_filterMap.mpr ⟨_, List.mem_cons_self .., hsome⟩
    | false =>
      cases hremoves : removesCustom ⟨after txs, tx⟩ with
      | true =>
        obtain ⟨call, f⟩ := tx
        obtain ⟨caller, severity, rfl, hremovable⟩ := removable_of_removes hremoves
        have hpost := hremovable.removes.2
        rw [post_of_invoke hi] at hpost
        -- An earlier update left the bundle that remains, and so registered its hash.
        have hkept := hkeeps txs _ List.prefix_rfl
        simp only [LosesBundle, not_exists, not_and, not_forall, not_not] at hkept
        obtain ⟨front, last, hfront, hrecords', hfields⟩ := hkept caller severity rfl hremovable
        obtain ⟨snapshot, hmem⟩ := registration_of_records hfront hrecords'
        have hs : ConfigSound s' := by
          rw [← hend]
          exact configSound_of_stored
            (version_of_front (List.prefix_append ..) hremovable.by_admin.version)
        have hhash := hs.versionHash
        rw [getConfigVersionHash, read_of_version hs.version, hpost, ← hfields] at hhash
        rw [← hpost] at hhash
        exact ⟨_, List.mem_append_left _ hmem, hhash⟩
      | false =>
        have hother : changesConfig ⟨after txs, tx⟩ = false := by
          rw [changesConfig_eq, hrecords, hremoves, Bool.or_false]
        rw [hother, Bool.or_false] at hchanged
        obtain ⟨entry, hentry, hhash⟩ := hpast hchanged
        have htouched : tx.call.touches .config = false ∧
            tx.call.touches .customConfig = false := by
          have hok := succeeds_of_ok hi
          rw [initializes_of_ok hi rfl] at hinit
          obtain ⟨call, f⟩ := tx
          cases call <;> simp_all [changesConfig, Call.isInitialize, Call.touches,
            History.isHistoryKey, isTelemetryKey]
        refine ⟨entry, List.mem_append_left _ hentry, ?_⟩
        rw [← hhash]
        exact computeConfigVersionHash_of_config (he.frame htouched.1)
          (customConfigs_of_key (he.frame htouched.2))
  · intro txs tx x ih hi hkeeps hchanged
    have hpast := ih (hkeeps.front (List.prefix_append ..))
    have hother : changesConfig ⟨after txs, tx⟩ = false := by
      by_contra hsome
      have hok := succeeds_of_changes (eq_true_of_ne_false hsome)
      rw [not_succeeds_of_refused hi] at hok
      cases hok
    rw [configChanged_concat, if_neg (by simp [not_initializes_of_refused hi]), hother,
      Bool.or_false] at hchanged
    obtain ⟨entry, hentry, hhash⟩ := hpast hchanged
    rw [registrations_append]
    exact ⟨entry, List.mem_append_left _ hentry, hhash⟩

end Lookup

/-- A removal that loses the bundle leaves a hash that does not resolve, while no two different
bundles collide. -/
theorem KeepsBundles.of_resolves {txs : List ContractTx} (hfree : CollisionFree txs)
    (hseparate : BundlesSeparate txs) (hresolves : RegistryResolves txs) : KeepsBundles txs := by
  rintro before ⟨call, f⟩ hpre ⟨caller, severity, rfl, hremovable, hlost⟩
  obtain ⟨hremoves, hpost⟩ := hremovable.removes
  have hchanged : configChanged (steps (before ++
      [⟨.removeCustomSeverity caller severity, f⟩])) = true := by
    rw [configChanged_concat, changesConfig_eq, hremoves, Bool.or_true, Bool.or_true]
    rfl
  obtain ⟨hash, snapshot, hhash, -, hlookup⟩ := hresolves.inForce _ hpre hchanged
  have hmem := (lookup_iff hfree hpre).mp hlookup
  have hnone : registration ⟨after before, ⟨.removeCustomSeverity caller severity, f⟩⟩ = none :=
    rfl
  rw [registrations_append, trace, List.filterMap_cons_none hnone, trace, List.filterMap_nil,
    List.append_nil] at hmem
  obtain ⟨front, last, hfront, hrecords, hpast, -, -⟩ := bundle_of_registration hmem
  have hfields := hseparate _ _
    (hfront.trans ((List.prefix_append ..).trans hpre)) hpre hash hpast hhash
  rw [(after_concat before _).trans hpost] at hfields
  exact hlost front last hfront hrecords hfields

/-- In a run whose bundles with different canonical parts do not collide, the hash in force
resolves all along, and goes on resolving, when every removal of a custom severity brings back
the bundle of an earlier update; and only then, when no two different bundles collide. -/
theorem registry_resolves_iff (txs : List ContractTx) (hfree : CollisionFree txs) :
    (KeepsBundles txs → RegistryResolves txs) ∧
      (BundlesSeparate txs → RegistryResolves txs → KeepsBundles txs) := by
  refine ⟨fun hkeeps => ⟨?_, ?_⟩, KeepsBundles.of_resolves hfree⟩
  · intro before hpre hchanged
    obtain ⟨entry, hentry, hhash⟩ := registered_after (hkeeps.front hpre) hchanged
    obtain ⟨front, last, hfront, -, hpast, hbuilt, hversion⟩ := bundle_of_registration hentry
    have hcurrent := version_of_front hfront hversion
    have hnow : getConfigVersionHash (after before) = .ok entry.1 := by
      rw [getConfigVersionHash, read_of_version hcurrent, hhash]
    have hconfig := hfree _ before (hfront.trans hpre) hpre entry.1 hpast hnow
    refine ⟨entry.1, entry.2, hnow, ?_, (lookup_iff hfree hpre).mpr hentry⟩
    rw [getConfigSnapshot, read_of_version hcurrent, ← hbuilt]
    simp only [buildConfigSnapshot, hconfig]
  · intro before later hpre hash snapshot hlookup
    have hfront := (List.prefix_append before later).trans hpre
    have hmem := (lookup_iff hfree hfront).mp hlookup
    refine (lookup_iff hfree hpre).mpr ?_
    rw [registrations_append]
    exact List.mem_append_left _ hmem

/-- The admin of `launch` registers a custom severity. -/
def registersNotice : ContractTx :=
  ⟨.setCustomSeverity ⟨1⟩ (symbolShort "notice" (by decide)) 240 5 500, ⟨[⟨1⟩], 3, 3⟩⟩

/-- A run whose removal brings back the bundle of the update before. -/
def restoredRun : List ContractTx :=
  launch ++
    [⟨.setConfig ⟨1⟩ critical 20 100 750, ⟨[⟨1⟩], 2, 2⟩⟩, registersNotice,
      ⟨.setCustomSeverity ⟨1⟩ (symbolShort "trivial" (by decide)) 480 1 100, ⟨[⟨1⟩], 4, 4⟩⟩,
      ⟨.removeCustomSeverity ⟨1⟩ (symbolShort "trivial" (by decide)), ⟨[⟨1⟩], 5, 5⟩⟩]

/-- Of two states of that run with the same hash the canonical maps and the bundles are the
same. -/
theorem restoredRun_separates : ∀ m n : Fin 6,
    getConfigVersionHash (after (restoredRun.take m)) =
        getConfigVersionHash (after (restoredRun.take n)) →
      (after (restoredRun.take m) .config).map OrdMap.entries =
          (after (restoredRun.take n) .config).map OrdMap.entries ∧
        bundleFields (after (restoredRun.take m)) = bundleFields (after (restoredRun.take n)) := by
  decide +kernel

theorem restored_of_hash {p q : List ContractTx} {hash : Nat} (hp : p <+: restoredRun)
    (hq : q <+: restoredRun) (h : getConfigVersionHash (after p) = .ok hash)
    (h' : getConfigVersionHash (after q) = .ok hash) :
    (after p .config).map OrdMap.entries = (after q .config).map OrdMap.entries ∧
      bundleFields (after p) = bundleFields (after q) := by
  rw [List.prefix_iff_eq_take.mp hp] at h ⊢
  rw [List.prefix_iff_eq_take.mp hq] at h' ⊢
  exact restoredRun_separates ⟨p.length, Nat.lt_succ_of_le hp.length_le⟩
    ⟨q.length, Nat.lt_succ_of_le hq.length_le⟩ (h.trans h'.symm)

theorem collisionFree_restoredRun : CollisionFree restoredRun := by
  intro p q hp hq hash h h'
  exact Option.map_injective OrdMap.entries_injective (restored_of_hash hp hq h h').1

theorem bundlesSeparate_restoredRun : BundlesSeparate restoredRun :=
  fun _ _ hp hq _ h h' => (restored_of_hash hp hq h h').2

theorem keepsBundles_restoredRun : KeepsBundles restoredRun := by
  rintro before tx hpre ⟨caller, severity, hcall, -, hlost⟩
  have hlen : before.length + 1 ≤ 5 := by
    have hlen : (before ++ [tx]).length ≤ 5 := hpre.length_le
    rwa [List.length_append] at hlen
  have htx : restoredRun[before.length]? = some tx := by
    rw [List.prefix_iff_getElem?.mp hpre before.length (by simp)]
    simp
  rw [List.prefix_iff_eq_take.mp ((List.prefix_append ..).trans hpre)] at hlost
  generalize before.length = n at hlen htx hlost
  have hcases : n = 0 ∨ n = 1 ∨ n = 2 ∨ n = 3 ∨ n = 4 := by omega
  -- the last call is the only removal
  rcases hcases with rfl | rfl | rfl | rfl | rfl <;> obtain rfl := Option.some.inj htx <;>
    cases hcall
  refine hlost (restoredRun.take 2) registersNotice ?_ ?_ ?_ <;> decide

theorem registry_resolves_iff_restoredRun :
    BundlesSeparate restoredRun ∧ RegistryResolves restoredRun :=
  ⟨bundlesSeparate_restoredRun,
    (registry_resolves_iff restoredRun collisionFree_restoredRun).1 keepsBundles_restoredRun⟩

/-- The bundles of the run that removes its one custom severity have one canonical part. -/
theorem collisionFree_removedRun : CollisionFree removedRun := by
  have hdefault : ∀ p, p <+: removedRun → ∀ hash, getConfigVersionHash (after p) = .ok hash →
      after p .config = some defaultConfigs := by
    intro p hpre
    refine forall_front_of_take (P := fun p => ∀ hash, getConfigVersionHash (after p) = .ok hash →
      after p .config = some defaultConfigs) ?_ hpre
    intro n hn hash hhash
    have hlen : n ≤ 3 := hn
    have hcases : n = 0 ∨ n = 1 ∨ n = 2 ∨ n = 3 := by omega
    rcases hcases with rfl | rfl | rfl | rfl
    · cases hhash
    · rfl
    · rfl
    · rfl
  intro p q hp hq hash hhash hhash'
  rw [hdefault p hp hash hhash, hdefault q hq hash hhash']

/-- The hash in force after the removal was never registered. -/
theorem removedRun_not_resolved : ¬ ∀ txs, CollisionFree txs → RegistryResolves txs := by
  intro h
  have hmissing : (do
      let hash ← getConfigVersionHash (after removedRun)
      getConfigSnapshotByVersion hash (after removedRun)) = .ok none := by rfl
  have hresolves := h removedRun collisionFree_removedRun
  obtain ⟨hash, snapshot, hhash, -, hlookup⟩ :=
    hresolves.inForce removedRun List.prefix_rfl (by decide)
  rw [hhash, ok_bind, hlookup] at hmissing
  cases hmissing

end ApexChainx
