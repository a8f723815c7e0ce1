import ApexChainx.Contract.HashMirror
import ApexChainx.Proofs.Bundles

/-!
# The hash mirror against the contract

On the canonical configurations the mirror computes the contract's rolling hash, for any values
of the twelve fields. The contract goes on to hash the custom configurations, which the mirror
is never given.
-/

namespace ApexChainx

open Host Misc

namespace TypeScript

/-! ## The arithmetic -/

/-- A pair of naturals, as the mirror holds it. -/
def cast (acc : Nat × Nat) : Int × Int := (acc.1, acc.2)

theorem u64_natCast (n : Nat) : u64 n = (wrap 64 n : Nat) := by
  simp [u64, wrap]

theorem tmod_modulus (n : Nat) : (n : Int).tmod MODULUS = (n % configHashModulus : Nat) := by
  rw [show MODULUS = (configHashModulus : Int) from rfl, ← Int.ofNat_tmod]

/-- One step of the mirror is one step of the contract. -/
theorem foldField_cast {acc : Nat × Nat} {field : Int} {n : Nat}
    (h : u64 field = (wrap 64 n : Nat)) :
    foldField (cast acc) field = cast (foldConfigHashField acc n) := by
  obtain ⟨hash, power⟩ := acc
  have habsorb : wrap 64 (wrap 64 (hash * configHashBase) + wrap 64 n) =
      wrap 64 (wrap 64 (hash * configHashBase) + n) := by simp [wrap, Nat.add_mod]
  have hbase : BASE = (configHashBase : Int) := rfl
  simp only [foldField, cast, foldConfigHashField, h, hbase, ← Int.natCast_mul, ← Int.natCast_add,
    u64_natCast, tmod_modulus, habsorb]

theorem u64_castUnsigned (x : Int) : u64 x = (wrap 64 (castUnsigned 64 x) : Nat) := by
  simp only [u64, wrap, castUnsigned]
  omega

/-- A configuration, as the mirror receives it. -/
def ofConfig (severity : Symbol) (cfg : SLAConfig) : SlaConfig :=
  ⟨severity, cfg.threshold_minutes, cfg.penalty_per_minute, cfg.reward_base⟩

/-- The configurations of a snapshot, as the mirror receives them. -/
def ofSnapshot (snapshot : SLAConfigSnapshot) : List SlaConfig :=
  snapshot.entries.map fun e => ofConfig e.severity e.config

theorem foldFields_cast (acc : Nat × Nat) (cfg : SLAConfig) :
    [(cfg.threshold_minutes : Int), cfg.penalty_per_minute, cfg.reward_base].foldl foldField
        (cast acc) =
      cast (foldConfigHashFields acc cfg) := by
  simp only [List.foldl_cons, List.foldl_nil, foldConfigHashFields, configHashFields]
  rw [foldField_cast (u64_natCast _), foldField_cast (u64_castUnsigned _),
    foldField_cast (u64_castUnsigned _)]

theorem finish_cast (hash : Nat) :
    (u64 (u64 (hash * BASE) + FINAL_MIX)).tmod MODULUS = (finishConfigHash hash : Nat) := by
  have hbase : BASE = (configHashBase : Int) := rfl
  have hmix : FINAL_MIX = (configHashFinalMix : Int) := rfl
  simp only [finishConfigHash, hbase, hmix, ← Int.natCast_mul, ← Int.natCast_add, u64_natCast,
    tmod_modulus]

/-- On four canonical configurations the mirror is the rolling hash of their fields. -/
theorem configVersionHash_canonical (c h m l : SLAConfig) :
    configVersionHash [ofConfig critical c, ofConfig high h, ofConfig medium m, ofConfig low l] =
      some (rollingHash
        (configHashFields c ++ configHashFields h ++ configHashFields m ++ configHashFields l) :
          Int) := by
  have hfold : foldSeverities
      [ofConfig critical c, ofConfig high h, ofConfig medium m, ofConfig low l] (cast (1, 1))
        CANONICAL_SEVERITIES = some (cast (foldConfigHashFields (foldConfigHashFields
          (foldConfigHashFields (foldConfigHashFields (1, 1) c) h) m) l)) := by
    rw [← foldFields_cast, ← foldFields_cast, ← foldFields_cast, ← foldFields_cast]
    rfl
  have hhash : rollingHash (configHashFields c ++ configHashFields h ++ configHashFields m ++
      configHashFields l) = finishConfigHash (foldConfigHashFields (foldConfigHashFields
        (foldConfigHashFields (foldConfigHashFields (1, 1) c) h) m) l).1 := by
    simp only [rollingHash, foldConfigHashFields, List.foldl_append]
  unfold configVersionHash
  rw [show ((1, 1) : Int × Int) = cast (1, 1) from rfl, hfold, hhash, ← finish_cast]
  rfl

end TypeScript

/-! ## The mirror in a run -/

/-- What the contract and the mirror hash in the states of a run: the bundle, and the canonical
part of it. -/
def mirroredFields (txs : List ContractTx) : Set (List Nat) :=
  {fields | ∃ before configs, before <+: txs ∧ after before .config = some configs ∧
    (fields = bundleFields (after before) ∨ fields = canonicalFields configs)}

theorem bundleFields_of_config {s : Storage} {configs : OrdMap Symbol SLAConfig}
    (stored : s .config = some configs) :
    bundleFields s = canonicalFields configs ++ customFields (customConfigs s) := by
  rw [bundleFields, stored, Option.getD_some]

/-- Every custom severity has fields. -/
theorem customFields_eq_nil {customs : OrdMap Symbol SLAConfig} :
    customFields customs = [] ↔ customs.entries = [] := by
  rcases hentries : customs.entries with - | ⟨e, rest⟩
  · simp [customFields, hentries]
  · simp [customFields, hentries, configHashFields]

/-- In every state in which `initialize` has succeeded the mirror of the snapshot agrees with the
bundle hash when no custom severity is registered, and, while the fields that the run hashes do
not collide, only then. -/
theorem mirror_agrees_iff (txs : List ContractTx) (hinit : 0 < initializations txs) :
    ∃ snapshot hash, getConfigSnapshot (after txs) = .ok snapshot ∧
      getConfigVersionHash (after txs) = .ok hash ∧
      ((customConfigs (after txs)).entries = [] →
        TypeScript.configVersionHash (TypeScript.ofSnapshot snapshot) = some (hash : Int)) ∧
      (Set.InjOn rollingHash (mirroredFields txs) →
        TypeScript.configVersionHash (TypeScript.ofSnapshot snapshot) = some (hash : Int) →
          (customConfigs (after txs)).entries = []) := by
  have hs := configSound_after hinit
  obtain ⟨configs, c, h, m, l, stored, hc, -⟩ := hs.canonical
  have hsnapshot := snapshot_of_canonical hc stored
  have hmirror : TypeScript.configVersionHash [TypeScript.ofConfig critical c,
      TypeScript.ofConfig high h, TypeScript.ofConfig medium m, TypeScript.ofConfig low l] =
        some (rollingHash (canonicalFields configs) : Int) := by
    rw [hc.fields]
    exact TypeScript.configVersionHash_canonical c h m l
  refine ⟨_, _, (read_of_version hs.version).trans hsnapshot, hs.versionHash, ?_, ?_⟩
  · intro hempty
    rw [bundleFields_of_config stored, customFields_eq_nil.mpr hempty, List.append_nil]
    exact hmirror
  · intro hinjective hagrees
    have hequal : rollingHash (canonicalFields configs) = rollingHash (bundleFields (after txs)) :=
      Int.natCast_inj.mp (Option.some.inj (hmirror.symm.trans hagrees))
    have hfields : canonicalFields configs = bundleFields (after txs) :=
      hinjective ⟨txs, configs, List.prefix_rfl, stored, .inr rfl⟩
        ⟨txs, configs, List.prefix_rfl, stored, .inl rfl⟩ hequal
    rw [bundleFields_of_config stored] at hfields
    exact customFields_eq_nil.mp (List.self_eq_append_right.mp hfields)

/-- A run that changes a configuration, and registers and removes a custom severity. -/
def mirroredRun : List ContractTx :=
  launch ++
    [⟨.setConfig ⟨1⟩ critical 20 100 750, ⟨[⟨1⟩], 2, 2⟩⟩,
      ⟨.setCustomSeverity ⟨1⟩ (symbolShort "minor" (by decide)) 240 5 500, ⟨[⟨1⟩], 3, 3⟩⟩,
      ⟨.removeCustomSeverity ⟨1⟩ (symbolShort "minor" (by decide)), ⟨[⟨1⟩], 4, 4⟩⟩]

theorem injOn_mirroredRun : Set.InjOn rollingHash (mirroredFields mirroredRun) := by
  have hbundles : ∀ fields ∈ mirroredFields mirroredRun,
      ∃ n : Fin 5, fields = bundleFields (after (mirroredRun.take n)) := by
    have hcanonical : ∀ n : Fin 5, ∃ k : Fin 5,
        canonicalFields ((after (mirroredRun.take n) .config).getD OrdMap.empty) =
          bundleFields (after (mirroredRun.take k)) := by
      decide +kernel
    rintro fields ⟨before, configs, hpre, stored, hfields⟩
    have hlen : before.length < 5 := Nat.lt_succ_of_le hpre.length_le
    rw [List.prefix_iff_eq_take.mp hpre] at stored hfields
    rcases hfields with rfl | rfl
    · exact ⟨⟨before.length, hlen⟩, rfl⟩
    · obtain ⟨k, hk⟩ := hcanonical ⟨before.length, hlen⟩
      rw [stored] at hk
      exact ⟨k, hk⟩
  have hdistinct : ∀ m n : Fin 5, rollingHash (bundleFields (after (mirroredRun.take m))) =
      rollingHash (bundleFields (after (mirroredRun.take n))) →
        bundleFields (after (mirroredRun.take m)) = bundleFields (after (mirroredRun.take n)) := by
    decide +kernel
  intro fields hfields fields' hfields' hequal
  obtain ⟨m, rfl⟩ := hbundles fields hfields
  obtain ⟨n, rfl⟩ := hbundles fields' hfields'
  exact hdistinct m n hequal

theorem mirror_agrees_iff_mirroredRun :
    Set.InjOn rollingHash (mirroredFields mirroredRun) ∧
      ∃ snapshot hash, getConfigSnapshot (after mirroredRun) = .ok snapshot ∧
        getConfigVersionHash (after mirroredRun) = .ok hash ∧
        TypeScript.configVersionHash (TypeScript.ofSnapshot snapshot) = some (hash : Int) := by
  obtain ⟨snapshot, hash, hsnapshot, hhash, hagrees, -⟩ :=
    mirror_agrees_iff mirroredRun (by decide)
  exact ⟨injOn_mirroredRun, snapshot, hash, hsnapshot, hhash, hagrees (by decide)⟩

/-- A run that registers a custom severity. -/
def customRun : List ContractTx :=
  launch ++ [⟨.setCustomSeverity ⟨1⟩ (symbolShort "minor") 240 5 500, ⟨[⟨1⟩], 2, 2⟩⟩]

/-- With a custom severity registered the mirror reports another hash than the contract. -/
theorem customRun_not_mirrored :
    ¬ ∀ snapshot hash, getConfigSnapshot (after customRun) = .ok snapshot →
      getConfigVersionHash (after customRun) = .ok hash →
        TypeScript.configVersionHash (TypeScript.ofSnapshot snapshot) = some (hash : Int) := by
  intro hmirrored
  have hsnapshot : getConfigSnapshot (after customRun) =
      .ok ⟨symbolShort "v1" snapshotVersion_wellFormed, [⟨critical, ⟨15, 100, 750⟩⟩,
        ⟨high, ⟨30, 50, 750⟩⟩, ⟨medium, ⟨60, 25, 750⟩⟩, ⟨low, ⟨120, 10, 600⟩⟩]⟩ := by rfl
  have hhash : getConfigVersionHash (after customRun) = .ok 6375707915483121834 := by rfl
  exact absurd (hmirrored _ _ hsnapshot hhash) (by decide)

end ApexChainx
