import ApexChainx.Contract.Views
import ApexChainx.Proofs.ConfigInvariant

/-!
# Configuration bundles

What the contract hashes and what it snapshots, in terms of the two stored maps: the bundle hash
is a rolling hash over the fields of the canonical configurations followed by those of the
custom ones, the hash of one severity is the same rolling hash over its three fields, and the
snapshot lists the canonical configurations only.
-/

namespace ApexChainx

open Host Misc

/-- The rolling hash of a list of fields. -/
def rollingHash (fields : List Nat) : Nat :=
  finishConfigHash (fields.foldl foldConfigHashField (1, 1)).1

/-- The fields of the canonical configurations, in canonical order. -/
def canonicalFields (configs : OrdMap Symbol SLAConfig) : List Nat :=
  (canonicalSeverities.filterMap configs.get).flatMap configHashFields

/-- The fields of the custom configurations, in key order. -/
def customFields (customs : OrdMap Symbol SLAConfig) : List Nat :=
  (customs.entries.map Prod.snd).flatMap configHashFields

/-- The fields the bundle hash of a state runs over. -/
def bundleFields (s : Storage) : List Nat :=
  canonicalFields ((s .config).getD OrdMap.empty) ++ customFields (customConfigs s)

theorem severityConfigHash_eq (cfg : SLAConfig) :
    severityConfigHash cfg = rollingHash (configHashFields cfg) := rfl

theorem foldl_foldConfigHashFields (cfgs : List SLAConfig) (acc : Nat × Nat) :
    cfgs.foldl foldConfigHashFields acc =
      (cfgs.flatMap configHashFields).foldl foldConfigHashField acc := by
  induction cfgs generalizing acc with
  | nil => rfl
  | cons cfg rest ih =>
    rw [List.foldl_cons, ih, List.flatMap_cons, List.foldl_append]
    rfl

/-- A read behind the version check, on a contract of this version. -/
theorem read_of_version {α : Type} {s : Storage} {x : Except SLAError α}
    (version : s .storageVersion = some storageVersion) : (do checkVersion s; x) = x := by
  have hpass : checkVersion s = .ok () := checkVersion_eq_ok.mpr version
  rw [hpass]
  rfl

section Canonical

variable {configs : OrdMap Symbol SLAConfig} {c h m l : SLAConfig} {s : Storage}

theorem Canonical.fields (hc : Canonical configs c h m l) :
    canonicalFields configs =
      configHashFields c ++ configHashFields h ++ configHashFields m ++ configHashFields l := by
  simp [canonicalFields, canonicalSeverities, hc.critical, hc.high, hc.medium, hc.low]

theorem loadConfig_canonical (stored : s .config = some configs) {severity : Symbol}
    (canonical : severity ∈ canonicalSeverities) {cfg : SLAConfig}
    (hget : configs.get severity = some cfg) : loadConfig severity s = .ok cfg := by
  simp [loadConfig, isCanonicalSeverity_iff.mpr canonical, stored, hget]

/-- Loading severities folds their configurations. -/
theorem foldLoadedConfigs_canonical (stored : s .config = some configs) {severities : List Symbol}
    (hget : ∀ severity ∈ severities, severity ∈ canonicalSeverities ∧
      configs.contains severity = true) (acc : Nat × Nat) :
    foldLoadedConfigs s acc severities =
      .ok ((severities.filterMap configs.get).foldl foldConfigHashFields acc) := by
  induction severities generalizing acc with
  | nil => rfl
  | cons severity rest ih =>
    obtain ⟨canonical, hcontains⟩ := hget severity List.mem_cons_self
    obtain ⟨cfg, hcfg⟩ := Option.isSome_iff_exists.mp hcontains
    simp only [foldLoadedConfigs, loadConfig_canonical stored canonical hcfg, ok_bind,
      List.filterMap_cons, hcfg, List.foldl_cons]
    exact ih (fun other hother => hget other (List.mem_cons_of_mem _ hother)) _

/-- The bundle hash is the rolling hash of the bundle. -/
theorem versionHash_of_canonical (hc : Canonical configs c h m l)
    (stored : s .config = some configs) :
    computeConfigVersionHash s = .ok (rollingHash (bundleFields s)) := by
  have hfold := foldLoadedConfigs_canonical stored
    (fun severity canonical => ⟨canonical, (hc.keys severity).mpr canonical⟩) (1, 1)
  simp only [computeConfigVersionHash, hfold, ok_bind, foldl_foldConfigHashFields]
  rw [rollingHash, bundleFields, List.foldl_append, stored]
  rfl

/-- The snapshot lists the canonical configurations. -/
theorem snapshot_of_canonical (hc : Canonical configs c h m l)
    (stored : s .config = some configs) :
    buildConfigSnapshot s = .ok ⟨symbolShort "v1" snapshotVersion_wellFormed,
      [⟨critical, c⟩, ⟨high, h⟩, ⟨medium, m⟩, ⟨low, l⟩]⟩ := by
  simp only [buildConfigSnapshot, stored, okOr_some, ok_bind, snapshotEntries,
    canonicalSeverities, hc.critical, hc.high, hc.medium, hc.low]
  rfl

end Canonical

/-- The bundle hash that is read is the rolling hash of the bundle. -/
theorem ConfigSound.versionHash {s : Storage} (hs : ConfigSound s) :
    getConfigVersionHash s = .ok (rollingHash (bundleFields s)) := by
  obtain ⟨configs, c, h, m, l, stored, hc, -⟩ := hs.canonical
  rw [getConfigVersionHash, read_of_version hs.version, versionHash_of_canonical hc stored]

end ApexChainx
