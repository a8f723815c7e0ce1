import ApexChainx.Proofs.Registry

/-!
# Replaying recorded decisions from the registry

A decision carries the hash of the configuration of its severity alone, and the registry is keyed
by the hash of the whole bundle. Without collisions the two never meet: the lookup of the hash of
a recorded decision finds nothing, whatever was registered before or after it
(`registry_never_replays`).
-/

namespace ApexChainx

open Host Misc

/-! ## What is hashed -/

/-- The field lists the contract hashes in a state of this version: the bundle, and each stored
configuration on its own. -/
def hashInputs (s : Storage) : List (List Nat) :=
  if (s .storageVersion).isSome then
    bundleFields s ::
      (((s .config).getD OrdMap.empty).entries ++ (customConfigs s).entries).map
        fun e => configHashFields e.2
  else []

/-- No two different field lists hashed in the run have the same hash. -/
def HashesInjective (txs : List ContractTx) : Prop :=
  ∀ p q, p <+: txs → q <+: txs → ∀ fields ∈ hashInputs (after p), ∀ fields' ∈ hashInputs (after q),
    rollingHash fields = rollingHash fields' → fields = fields'

/-- A configuration that loads is a stored one. -/
theorem mem_hashInputs_of_loadConfig {s : Storage} {version : Nat} {severity : Symbol}
    {cfg : SLAConfig} (hversion : s .storageVersion = some version)
    (h : loadConfig severity s = .ok cfg) : configHashFields cfg ∈ hashInputs s := by
  have hstored : (severity, cfg) ∈
      ((s .config).getD OrdMap.empty).entries ++ (customConfigs s).entries := by
    unfold loadConfig at h
    split at h
    · simp only [bind_eq_ok, okOr_eq_ok] at h
      obtain ⟨configs, stored, hget⟩ := h
      rw [stored]
      exact List.mem_append_left _ (OrdMap.mem_of_get hget)
    · exact List.mem_append_right _ (OrdMap.mem_of_get (okOr_eq_ok.mp h))
  rw [hashInputs, hversion]
  exact List.mem_cons_of_mem _ (List.mem_map.mpr ⟨_, hstored, rfl⟩)

/-- A bundle has more fields than a single configuration. -/
theorem ConfigSound.bundle_ne {s : Storage} (hs : ConfigSound s) (cfg : SLAConfig) :
    bundleFields s ≠ configHashFields cfg := by
  obtain ⟨configs, c, h, m, l, stored, hc, -⟩ := hs.canonical
  intro heq
  have hlen := congrArg List.length heq
  rw [bundleFields, stored, Option.getD_some, hc.fields] at hlen
  simp only [List.length_append, configHashFields, List.length_cons, List.length_nil] at hlen
  omega

/-! ## Replays -/

/-- The call set a canonical configuration. -/
def setsConfig (st : ContractStep) : Bool :=
  match st.tx.call with
  | .setConfig _ _ _ _ _ => succeeds st
  | _ => false

/-- The decision is retained at the end of the run, and was recorded under a canonical severity
after a `set_config`. -/
structure RetainedDecision (txs : List ContractTx) (decision : SLAResult) : Prop where
  retained : decision ∈ History.readAllEntries (after txs)
  recorded : ∃ before tx outage_id severity mttr, before ++ [tx] <+: txs ∧
    severity ∈ canonicalSeverities ∧ Stores (after before) tx outage_id severity mttr decision ∧
      ∃ st ∈ steps before, setsConfig st = true

/-- The snapshot registered under the hash of the decision has a tier that gives the decision
again. -/
def Replayable (s : Storage) (decision : SLAResult) : Prop :=
  ∃ snapshot, getConfigSnapshotByVersion decision.config_version_hash s = .ok (some snapshot) ∧
    ∃ entry ∈ snapshot.entries, ∃ again,
      computeResult decision.outage_id decision.mttr_minutes entry.config
        decision.config_version_hash decision.recorded_at = .ok again ∧
      again.status = decision.status ∧ again.threshold_minutes = decision.threshold_minutes ∧
      again.amount = decision.amount ∧ again.rating = decision.rating

/-- The hash of a configuration that loads somewhere in the run is not in the registry. -/
theorem not_registered_of_loadConfig {txs before : List ContractTx} (hfree : HashesInjective txs)
    (hpre : before <+: txs) {version : Nat}
    (hversion : after before .storageVersion = some version) {severity : Symbol} {cfg : SLAConfig}
    (hload : loadConfig severity (after before) = .ok cfg) :
    getConfigSnapshotByVersion (severityConfigHash cfg) (after txs) = .ok none := by
  rw [getConfigSnapshotByVersion, read_of_version (version_of_front hpre hversion)]
  have hnone : (registryOf (after txs)).get (severityConfigHash cfg) = none := by
    rw [registry_after]
    by_contra hsome
    obtain ⟨snapshot, hget⟩ := Option.ne_none_iff_exists'.mp hsome
    obtain ⟨front, last, hfront, -, hhash, -, hversion'⟩ :=
      bundle_of_registration (OrdMap.mem_of_get_ofWrites hget)
    have hs := configSound_of_stored hversion'
    rw [hs.versionHash, severityConfigHash_eq] at hhash
    refine hs.bundle_ne cfg (hfree _ before hfront hpre _ ?_ _ ?_ (Except.ok.inj hhash))
    · rw [hashInputs, hversion']
      exact List.mem_cons_self ..
    · exact mem_hashInputs_of_loadConfig hversion hload
  exact congrArg Except.ok hnone

/-- A recorded decision can never be replayed from the registry: the lookup of its hash finds
nothing. -/
theorem registry_never_replays (txs : List ContractTx) (hfree : HashesInjective txs)
    {decision : SLAResult} (h : RetainedDecision txs decision) :
    getConfigSnapshotByVersion decision.config_version_hash (after txs) = .ok none ∧
      ¬ Replayable (after txs) decision := by
  obtain ⟨before, tx, outage_id, severity, mttr, hpre, -, hstores, -⟩ := h.recorded
  obtain ⟨s', evs, cfg, hr, -, -, -⟩ := hstores.records (current_after before)
  obtain ⟨caller, by_operator, -⟩ := hr.call
  have hhash : decision.config_version_hash = severityConfigHash cfg :=
    (computeResult_inputs hr.computed).2.2.2.1
  have hnone := not_registered_of_loadConfig hfree
    ((List.prefix_append before [tx]).trans hpre) by_operator.version hr.config
  rw [← hhash] at hnone
  refine ⟨hnone, ?_⟩
  rintro ⟨snapshot, hlookup, -⟩
  rw [hnone] at hlookup
  cases hlookup

/-- A run that sets a configuration and then records a decision under it. -/
def replayedRun : List ContractTx :=
  launch ++ [⟨.setConfig ⟨1⟩ critical 20 100 750, ⟨[⟨1⟩], 2, 2⟩⟩, submitTen 3 critical]

/-- The decision it records. -/
def replayedDecision : SLAResult :=
  ⟨sampleOutage, .met, 10, 20, 1125, .rew, .excel, severityConfigHash ⟨20, 100, 750⟩, 3⟩

theorem hashesInjective_replayedRun : HashesInjective replayedRun := by
  have hinputs : ∀ p, p <+: replayedRun → ∀ fields ∈ hashInputs (after p),
      fields ∈ hashInputs (after launch) ++ hashInputs (after replayedRun) := by
    intro p hpre
    refine forall_front_of_take (P := fun p => ∀ fields ∈ hashInputs (after p), fields ∈
      hashInputs (after launch) ++ hashInputs (after replayedRun)) ?_ hpre
    intro n hn
    have hlen : n ≤ 3 := hn
    have hcases : n = 0 ∨ n = 1 ∨ n = 2 ∨ n = 3 := by omega
    rcases hcases with rfl | rfl | rfl | rfl <;> decide
  have hdistinct : ∀ fields ∈ hashInputs (after launch) ++ hashInputs (after replayedRun),
      ∀ fields' ∈ hashInputs (after launch) ++ hashInputs (after replayedRun),
        rollingHash fields = rollingHash fields' → fields = fields' := by
    decide
  intro p q hp hq fields hfields fields' hfields'
  exact hdistinct fields (hinputs p hp fields hfields) fields' (hinputs q hq fields' hfields')

theorem retainedDecision_replayedRun : RetainedDecision replayedRun replayedDecision where
  retained := by decide
  recorded := ⟨replayedRun.take 2, submitTen 3 critical, sampleOutage, critical, 10,
    List.prefix_rfl, by decide, ⟨⟨_, rfl⟩, by decide, by decide⟩, by decide⟩

theorem registry_never_replays_replayedRun : ¬ Replayable (after replayedRun) replayedDecision :=
  (registry_never_replays replayedRun hashesInjective_replayedRun retainedDecision_replayedRun).2

/-- The lookup of the hash of that decision finds nothing. -/
theorem replayedRun_not_replayable :
    ¬ ∀ txs decision, HashesInjective txs → RetainedDecision txs decision →
      Replayable (after txs) decision := by
  intro h
  obtain ⟨snapshot, hlookup, -⟩ :=
    h replayedRun replayedDecision hashesInjective_replayedRun retainedDecision_replayedRun
  have hnone : getConfigSnapshotByVersion replayedDecision.config_version_hash
      (after replayedRun) = .ok none := by rfl
  rw [hnone] at hlookup
  cases hlookup

end ApexChainx
