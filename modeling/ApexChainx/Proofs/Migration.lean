import ApexChainx.Proofs.SharedCalls

/-!
# Schema migration

`migrate` brings a storage of schema version 0, 1 or 2 to version 3 (`migration_sound`): the legacy
vector becomes an exact sharded history with the same entries, the cached counters are derived
again, and no other value changes. The three arms may run in one call or one at a time.
-/

namespace ApexChainx

open Host Misc

/-! ## The arms of `migrate` -/

/-- A storage as a version below 3 left it: the history is the vector `legacy`, absent when it is
empty, and no key of the sharded history was written. A vector of the host has a `u32` length. -/
structure Legacy (s : Storage) (legacy : List SLAResult) : Prop where
  vector : (s .history).getD [] = legacy
  fits : legacy.length < 2 ^ 32
  unsharded : ∀ k ∈ History.logKeys, s k = none

/-- The keys that `migrate` may change where they hold a value. -/
def isMigratedKey : StorageKey → Bool
  | .storageVersion | .history | .configCount => true
  | k => History.isHistoryKey k

/-- Every value of `s` outside the migrated keys is still there. -/
def Retains (s s' : Storage) : Prop :=
  ∀ (k : StorageKey) (v : k.Val), isMigratedKey k = false → s k = some v → s' k = some v

theorem Retains.trans {s mid s' : Storage} (h : Retains s mid) (h' : Retains mid s') :
    Retains s s' :=
  fun k v hk hv => h' k v hk (h k v hk hv)

/-- What the arms before the last one do: they write the version `n`, and keep the legacy vector
and every value that was there. -/
structure Upgrades (n : Nat) (s s' : Storage) : Prop where
  version : s' .storageVersion = some n
  vector : (s' .history).getD [] = (s .history).getD []
  unsharded : ∀ k ∈ History.logKeys, s' k = s k
  retained : Retains s s'

theorem Upgrades.legacy {n : Nat} {s s' : Storage} {legacy : List SLAResult}
    (h : Upgrades n s s') (hl : Legacy s legacy) : Legacy s' legacy where
  vector := h.vector.trans hl.vector
  fits := hl.fits
  unsharded := fun k hk => (h.unsharded k hk).trans (hl.unsharded k hk)

/-- A storage of version 3 whose log holds the entries of `legacy`, made out of `s`. -/
structure Migrated (legacy : List SLAResult) (s s' : Storage) : Prop where
  version : s' .storageVersion = some 3
  exact : (History.shards s').Exact SLAResult.outage_id
  entries : History.readAllEntries s' = legacy
  vector : s' .history = none
  length : s' .historyLen = some legacy.length
  configs : s' .configCount = some ((s' .config).getD OrdMap.empty).len
  retained : Retains s s'

/-- The log of a storage whose log keys were never written is empty. -/
theorem shards_unsharded {s : Storage} (h : ∀ k ∈ History.logKeys, s k = none) :
    History.shards s = ⟨0, 0, fun _ => none, fun _ => []⟩ := by
  have hempty : History.shards s = History.shards Store.empty := History.shards_congr h
  exact hempty

/-- The environment with a key set that was absent. -/
def filled (env : ContractEnv) (key : StorageKey) (v : key.Val) : ContractEnv :=
  if (env.storage key).isSome then env else env.set key v

section Filled

variable (env : ContractEnv) (key : StorageKey) (v : key.Val)

@[simp] theorem filled_same :
    (filled env key v).storage key = some ((env.storage key).getD v) := by
  unfold filled
  cases h : env.storage key <;> simp [h]

@[simp] theorem filled_other {j : StorageKey} (h : j ≠ key) :
    (filled env key v).storage j = env.storage j := by
  unfold filled
  split <;> simp [h]

variable {f : Frame Address} {env' : ContractEnv} {u : Unit}

@[simp] theorem returns_setMissing :
    (setMissing key v).Returns f env u env' ↔ env' = filled env key v := by
  unfold setMissing filled
  cases h : env.storage key <;> simp [h]

@[simp] theorem returns_setMissing_bind {α : Type} {a : α} (g : Unit → Contract α) :
    (setMissing key v >>= g).Returns f env a env' ↔ (g ()).Returns f (filled env key v) a env' := by
  simp only [Prog.returns_bind, returns_setMissing, exists_eq_left]
  exact ⟨fun h => h.choose_spec, fun h => ⟨(), h⟩⟩

end Filled

section Arms

variable {f : Frame Address} {env env' : ContractEnv} {u : Unit}

theorem migrateV0_upgrades (hr : migrateV0.Returns f env u env') :
    Upgrades 1 env.storage env'.storage := by
  simp only [migrateV0, initMissingStorageDefaults, Prog.returns_bind_assoc,
    returns_setMissing_bind, Contract.getD, Prog.returns_getD_bind, Contract.set,
    Prog.returns_set] at hr
  subst hr
  refine ⟨by simp, by simp, ?_, ?_⟩
  · intro k hk
    cases k <;> simp_all [History.logKeys, History.isHistoryKey]
  · intro k v hk hv
    cases k <;> simp_all [isMigratedKey, History.isHistoryKey]

theorem migrateV1_upgrades (hr : migrateV1.Returns f env u env') :
    Upgrades 2 env.storage env'.storage := by
  simp only [migrateV1, Contract.getD, Prog.returns_getD_bind, Contract.set, Prog.returns_set_bind,
    Prog.returns_set] at hr
  subst hr
  refine ⟨by simp, by simp, ?_, ?_⟩
  · intro k hk
    cases k <;> simp_all [History.logKeys, History.isHistoryKey]
  · intro k v hk hv
    cases k <;> simp_all [isMigratedKey, History.isHistoryKey]

/-- The last arm removes the vector, makes a log of it, and stamps the version. -/
theorem migrateV2_rebuilds (hr : migrateV2.Returns f env u env') {legacy : List SLAResult}
    (hl : Legacy env.storage legacy) :
    ∃ mid, History.Leaves (env.remove .history) mid
        (ShardedLog.rebuild SLAResult.outage_id legacy ⟨0, 0, fun _ => none, fun _ => []⟩) ∧
      mid.storage .historyLen = some legacy.length ∧
      env' = (mid.set .configCount ((mid.storage .config).getD OrdMap.empty).len).set
        .storageVersion 3 := by
  simp only [migrateV2, Contract.getD, Contract.remove, Prog.returns_getD_bind,
    Prog.returns_remove_bind, hl.vector, Contract.set] at hr
  obtain ⟨_, mid, hrebuild, hr⟩ := (Prog.returns_bind ..).mp hr
  simp only [Prog.returns_getD_bind, Prog.returns_set_bind, Prog.returns_set] at hr
  have hempty : History.shards (env.remove .history).storage =
      ⟨0, 0, fun _ => none, fun _ => []⟩ :=
    (History.shards_remove_of_other rfl).trans (shards_unsharded hl.unsharded)
  have hhead : History.head (env.remove .history).storage = 0 := congrArg ShardedLog.head hempty
  obtain ⟨hleaves, hlen⟩ := History.rebuildHistory_leaves hrebuild (by
    rw [hhead, Nat.zero_add]
    exact hl.fits)
  rw [hempty] at hleaves
  exact ⟨mid, hleaves, hlen, hr⟩

theorem migrateV2_log (hr : migrateV2.Returns f env u env') {legacy : List SLAResult}
    (hl : Legacy env.storage legacy) :
    History.shards env'.storage =
      ShardedLog.rebuild SLAResult.outage_id legacy ⟨0, 0, fun _ => none, fun _ => []⟩ := by
  obtain ⟨mid, hleaves, -, hr⟩ := migrateV2_rebuilds hr hl
  rw [hr, Env.set_storage, Env.set_storage, History.shards_set_of_other rfl,
    History.shards_set_of_other rfl, hleaves.log]

/-- The last arm turns the vector into the log. -/
theorem migrateV2_migrated (hr : migrateV2.Returns f env u env') {legacy : List SLAResult}
    (hl : Legacy env.storage legacy) : Migrated legacy env.storage env'.storage := by
  have hlog := migrateV2_log hr hl
  obtain ⟨mid, hleaves, hlen, hr⟩ := migrateV2_rebuilds hr hl
  refine ⟨by simp [hr], ?_, ?_, ?_, by simp [hr, hlen], by simp [hr], ?_⟩
  · rw [hlog]
    exact ShardedLog.exact_empty.rebuild legacy
  · have htail : History.tail env'.storage = legacy.length := by
      rw [← History.shards_tail, hlog]
      exact Nat.zero_add _
    have hbound : History.tail env'.storage < 2 ^ 32 := htail ▸ hl.fits
    rw [History.readAllEntries_eq_items hbound, hlog, ShardedLog.items_rebuild]
  · have hremoved := hleaves.other .history rfl
    simpa [hr] using hremoved
  · intro k v hk hv
    have hother := hleaves.other k (by cases k <;> first | rfl | cases hk)
    rw [hr]
    cases k <;> simp_all [isMigratedKey, History.isHistoryKey]

end Arms

/-! ## Totality, and independence of what was published -/

section Total

theorem setMissing_total (key : StorageKey) (v : key.Val) : (setMissing key v).Total :=
  .bind (.has _) fun _ => .ite _ (.pure _) (.set _ _)

theorem migrateV0_total : migrateV0.Total :=
  .bind (.bind (setMissing_total _ _) fun _ => .bind (setMissing_total _ _) fun _ =>
    .bind (setMissing_total _ _) fun _ => .bind (setMissing_total _ _) fun _ =>
    .bind (setMissing_total _ _) fun _ => .bind (setMissing_total _ _) fun _ =>
    .bind (setMissing_total _ _) fun _ => .bind (.getD _ _) fun _ =>
    .bind (setMissing_total _ _) fun _ => .bind (setMissing_total _ _) fun _ =>
    .bind (setMissing_total _ _) fun _ => .bind (.getD _ _) fun _ => setMissing_total _ _)
    fun _ => .set _ _

theorem migrateV1_total : migrateV1.Total :=
  .bind (.getD _ _) fun _ => .bind (.set _ _) fun _ => .set _ _

theorem migrateV2_total : migrateV2.Total :=
  .bind (.getD _ _) fun _ => .bind (.remove _) fun _ =>
    .bind (History.rebuildHistory_total _) fun _ => .bind (.getD _ _) fun _ =>
      .bind (.set _ _) fun _ => .set _ _

end Total

section Keeps

variable {rel : ContractEnv → ContractEnv → Prop} (hr : Agrees rel Set.univ)
  (hw : Allows rel Set.univ)

include hr hw

theorem keeps_setMissing (key : StorageKey) (v : key.Val) : Keeps rel (setMissing key v) :=
  .bind (.has hr trivial) fun _ => .ite _ (.pure _) (.set hw trivial _)

theorem keeps_migrateV0 : Keeps rel migrateV0 := by
  have hset := keeps_setMissing hr hw
  exact .bind (.bind (hset _ _) fun _ => .bind (hset _ _) fun _ => .bind (hset _ _) fun _ =>
    .bind (hset _ _) fun _ => .bind (hset _ _) fun _ => .bind (hset _ _) fun _ =>
    .bind (hset _ _) fun _ => .bind (.getD hr trivial _) fun _ => .bind (hset _ _) fun _ =>
    .bind (hset _ _) fun _ => .bind (hset _ _) fun _ => .bind (.getD hr trivial _) fun _ =>
    hset _ _) fun _ => .set hw trivial _

theorem keeps_migrateV1 : Keeps rel migrateV1 :=
  .bind (.getD hr trivial _) fun _ => .bind (.set hw trivial _) fun _ => .set hw trivial _

theorem keeps_migrateV2 : Keeps rel migrateV2 :=
  .bind (.getD hr trivial _) fun _ => .bind (.remove hw trivial) fun _ =>
    .bind (History.keeps_rebuildHistory (fun _ _ => trivial) hr hw _) fun _ =>
      .bind (.getD hr trivial _) fun _ => .bind (.set hw trivial _) fun _ => .set hw trivial _

end Keeps

/-- A step of the schema always returns, and what it leaves depends on the storage only. -/
structure SchemaStep (m : Contract Unit) : Prop where
  total : m.Total
  keeps : Keeps SameStorage m

theorem SchemaStep.bind {m n : Contract Unit} (hm : SchemaStep m) (hn : SchemaStep n) :
    SchemaStep (m >>= fun _ => n) :=
  ⟨.bind hm.total fun _ => hn.total, .bind hm.keeps fun _ => hn.keeps⟩

theorem schemaStep_migrateV0 : SchemaStep migrateV0 :=
  ⟨migrateV0_total, keeps_migrateV0 (agrees_sameStorage _) (allows_sameStorage _)⟩

theorem schemaStep_migrateV1 : SchemaStep migrateV1 :=
  ⟨migrateV1_total, keeps_migrateV1 (agrees_sameStorage _) (allows_sameStorage _)⟩

theorem schemaStep_migrateV2 : SchemaStep migrateV2 :=
  ⟨migrateV2_total, keeps_migrateV2 (agrees_sameStorage _) (allows_sameStorage _)⟩

/-- The storage a step of the schema leaves when it runs on its own. -/
def upgrade (m : Contract Unit) (f : Frame Address) (s : Storage) : Storage :=
  (m f ⟨s, [], []⟩).2.storage

section Upgrade

variable {m n : Contract Unit} {f : Frame Address} {s : Storage} {legacy : List SLAResult}

/-- A step of the schema leaves the same storage in the middle of a call and on its own. -/
theorem SchemaStep.returns (hm : SchemaStep m) (f : Frame Address) (env : ContractEnv) :
    ∃ env', m.Returns f env () env' ∧ env'.storage = upgrade m f env.storage := by
  obtain ⟨_, env', h⟩ := hm.total f env
  have hsame : SameStorage env ⟨env.storage, [], []⟩ := rfl
  exact ⟨env', h, (hm.keeps.storage_eq hsame h).symm⟩

theorem upgrade_bind (hm : SchemaStep m) (hn : SchemaStep n) :
    upgrade (m >>= fun _ => n) f s = upgrade n f (upgrade m f s) := by
  obtain ⟨mid, hrm, hmid⟩ := hm.returns f ⟨s, [], []⟩
  obtain ⟨env', hrn, hend⟩ := hn.returns f mid
  have hboth : (m >>= fun _ => n).Returns f ⟨s, [], []⟩ () env' :=
    (Prog.returns_bind ..).mpr ⟨(), mid, hrm, hrn⟩
  calc upgrade (m >>= fun _ => n) f s
      = env'.storage := congrArg (·.2.storage) hboth
    _ = upgrade n f (upgrade m f s) := by rw [hend, hmid]

theorem upgrade_migrateV0 (f : Frame Address) (s : Storage) :
    Upgrades 1 s (upgrade migrateV0 f s) := by
  obtain ⟨env', hr, hend⟩ := schemaStep_migrateV0.returns f ⟨s, [], []⟩
  exact hend ▸ migrateV0_upgrades hr

theorem upgrade_migrateV1 (f : Frame Address) (s : Storage) :
    Upgrades 2 s (upgrade migrateV1 f s) := by
  obtain ⟨env', hr, hend⟩ := schemaStep_migrateV1.returns f ⟨s, [], []⟩
  exact hend ▸ migrateV1_upgrades hr

theorem upgrade_migrateV2 (f : Frame Address) (hl : Legacy s legacy) :
    Migrated legacy s (upgrade migrateV2 f s) := by
  obtain ⟨env', hr, hend⟩ := schemaStep_migrateV2.returns f ⟨s, [], []⟩
  exact hend ▸ migrateV2_migrated hr hl

end Upgrade

/-! ## The whole call -/

/-- The arms that `migrate` runs from a stored version on. -/
def armsFrom : Nat → Contract Unit
  | 0 => migrateV0 >>= fun _ => migrateV1 >>= fun _ => migrateV2
  | 1 => migrateV1 >>= fun _ => migrateV2
  | _ => migrateV2

theorem schemaStep_armsFrom (stored : Nat) : SchemaStep (armsFrom stored) := by
  have hlast := schemaStep_migrateV1.bind schemaStep_migrateV2
  rcases stored with _ | _ | _
  · exact schemaStep_migrateV0.bind hlast
  · exact hlast
  · exact schemaStep_migrateV2

/-- From a version of at most 2 on, the arms of `migrate` reach version 3, so that the check behind
them passes. -/
theorem migrateArms_eq {α : Type} {stored : Nat} (hold : stored ≤ 2) (g : Nat → Contract α) :
    (do
      let current ← migrateArm 0 migrateV0 stored
      let current ← migrateArm 1 migrateV1 current
      let current ← migrateArm 2 migrateV2 current
      Contract.failIf (current ≠ storageVersion) .VersionMismatch
      g current) = armsFrom stored >>= fun _ => g 3 := by
  have hpure : ∀ (n : Nat) (g : Nat → Contract α), (pure n : Contract Nat) >>= g = g n :=
    fun _ _ => rfl
  have hdone : (do
      Contract.failIf (3 ≠ storageVersion) .VersionMismatch
      g 3) = g 3 := rfl
  have hcases : stored = 0 ∨ stored = 1 ∨ stored = 2 := by omega
  rcases hcases with rfl | rfl | rfl
  all_goals simp [migrateArm, armsFrom, Prog.bind_assoc, hpure, hdone]

section Call

variable {f : Frame Address} {s : Storage} {caller : Address} {legacy : List SLAResult}

theorem upgrade_armsFrom_one (f : Frame Address) (s : Storage) :
    upgrade (armsFrom 1) f s = upgrade migrateV2 f (upgrade migrateV1 f s) :=
  upgrade_bind schemaStep_migrateV1 schemaStep_migrateV2

theorem upgrade_armsFrom_zero (f : Frame Address) (s : Storage) :
    upgrade (armsFrom 0) f s = upgrade (armsFrom 1) f (upgrade migrateV0 f s) :=
  upgrade_bind schemaStep_migrateV0 (schemaStep_armsFrom 1)

/-- Whatever the stored version, the last arm works on a legacy storage of the same vector, which
retains what was stored. -/
theorem upgrade_armsFrom (f : Frame Address) (hl : Legacy s legacy) (stored : Nat) :
    ∃ mid, upgrade (armsFrom stored) f s = upgrade migrateV2 f mid ∧ Legacy mid legacy ∧
      Retains s mid := by
  rcases stored with _ | _ | _
  · have hup₁ := upgrade_migrateV0 f s
    have hup₂ := upgrade_migrateV1 f (upgrade migrateV0 f s)
    refine ⟨_, ?_, hup₂.legacy (hup₁.legacy hl), hup₁.retained.trans hup₂.retained⟩
    rw [upgrade_armsFrom_zero, upgrade_armsFrom_one]
  · have hup := upgrade_migrateV1 f s
    exact ⟨_, upgrade_armsFrom_one f s, hup.legacy hl, hup.retained⟩
  · exact ⟨s, rfl, hl, fun _ _ _ hv => hv⟩

/-- The arms make the log of the vector. -/
theorem migrated_armsFrom (f : Frame Address) (hl : Legacy s legacy) (stored : Nat) :
    Migrated legacy s (upgrade (armsFrom stored) f s) := by
  obtain ⟨mid, heq, hmid, hretains⟩ := upgrade_armsFrom f hl stored
  have hlast := upgrade_migrateV2 f hmid
  rw [heq]
  exact { hlast with retained := hretains.trans hlast.retained }

/-- The log starts at slot zero, and holds the vector. -/
theorem log_armsFrom (f : Frame Address) (hl : Legacy s legacy) (stored : Nat) :
    History.shards (upgrade (armsFrom stored) f s) =
      ShardedLog.rebuild SLAResult.outage_id legacy ⟨0, 0, fun _ => none, fun _ => []⟩ := by
  obtain ⟨mid, heq, hmid, -⟩ := upgrade_armsFrom f hl stored
  obtain ⟨env', hr, hend⟩ := schemaStep_migrateV2.returns f ⟨mid, [], []⟩
  rw [heq, ← hend]
  exact migrateV2_log hr hmid

/-- `migrate` by the admin runs the arms from the stored version on. -/
theorem migrate_runs (hadmin : s .admin = some caller) (hsigned : caller ∈ f.auths) {stored : Nat}
    (hstored : (s .storageVersion).getD 0 = stored) (hold : stored ≤ 2) :
    (invoke exec ⟨.migrate caller, f⟩ s).reply = .ok .unit ∧
      (invoke exec ⟨.migrate caller, f⟩ s).storage = upgrade (armsFrom stored) f s := by
  obtain ⟨mid, hr, hend⟩ := (schemaStep_armsFrom stored).returns f ⟨s, [], []⟩
  have hm : (migrate caller).Returns f ⟨s, [], []⟩ ()
      (mid.publish (.migrateDone caller stored 3)) := by
    simp only [migrate, Contract.getOr, Contract.failIf, Contract.getD,
      Prog.returns_requireAuth_bind, Prog.returns_getOr_bind, Prog.returns_failIf_bind,
      Prog.returns_getD_bind, Decidable.not_not]
    refine ⟨hsigned, caller, hadmin, rfl, ?_⟩
    have hdone : (armsFrom stored >>= fun _ => Prog.publish (.migrateDone caller stored 3)).Returns
        f ⟨s, [], []⟩ () (mid.publish (.migrateDone caller stored 3)) :=
      (Prog.returns_bind ..).mpr ⟨(), mid, hr, rfl⟩
    have hbehind : stored ≠ storageVersion := Nat.ne_of_lt (Nat.lt_succ_of_le hold)
    have hknown : ¬ stored > storageVersion := Nat.not_lt.mpr (Nat.le_succ_of_le hold)
    rw [hstored, if_neg hbehind]
    refine (Prog.returns_failIf_bind ..).mpr ⟨hknown, ?_⟩
    have harms := migrateArms_eq hold fun current =>
      Contract.publish (.migrateDone caller stored current)
    exact (congrArg (Prog.Returns · f ⟨s, [], []⟩ () _) harms).mpr hdone
  have hi : invoke exec ⟨.migrate caller, f⟩ s = _ :=
    invoke_of_returns (returns_replyUnit.mpr ⟨rfl, hm⟩)
  rw [hi]
  exact ⟨rfl, hend⟩

/-- On a current storage `migrate` changes nothing, whoever calls it. -/
theorem migrate_current (hversion : s .storageVersion = some 3) :
    (invoke exec ⟨.migrate caller, f⟩ s).storage = s ∧
      (invoke exec ⟨.migrate caller, f⟩ s).events = [] := by
  rcases invoke_cases exec ⟨.migrate caller, f⟩ s with ⟨r, env, hr, hi⟩ | ⟨x, hi⟩
  · obtain ⟨-, hm⟩ := returns_replyUnit.mp hr
    simp [migrate, hversion, storageVersion] at hm
    obtain ⟨-, -, rfl⟩ := hm
    rw [hi]
    exact ⟨rfl, rfl⟩
  · rw [hi]
    exact ⟨rfl, rfl⟩

/-- `migrate` refuses a caller who did not sign or is not the admin, and a version it does not
know. -/
theorem migrate_refuses (h : caller ∉ f.auths ∨ s .admin ≠ some caller ∨
      storageVersion < (s .storageVersion).getD 0) :
    ∃ x, invoke exec ⟨.migrate caller, f⟩ s = ⟨s, [], .error x⟩ := by
  rcases invoke_cases exec ⟨.migrate caller, f⟩ s with ⟨r, env, hr, hi⟩ | hx
  · obtain ⟨-, hm⟩ := returns_replyUnit.mp hr
    simp only [migrate, Contract.getOr, Contract.failIf, Contract.getD,
      Prog.returns_requireAuth_bind, Prog.returns_getOr_bind, Prog.returns_failIf_bind,
      Prog.returns_getD_bind, Decidable.not_not] at hm
    obtain ⟨signed, admin, hadmin, rfl, hm⟩ := hm
    rcases h with hunsigned | hother | hnewer
    · exact absurd signed hunsigned
    · exact absurd hadmin hother
    · simp [Nat.ne_of_gt hnewer, hnewer] at hm
  · exact hx

end Call

/-- The storage a `migrate` by `caller` commits. -/
def migrateCommits (f : Frame Address) (caller : Address) (s : Storage) : Storage :=
  (invoke exec ⟨.migrate caller, f⟩ s).storage

/-- What `migrate`, signed by the admin, makes of a legacy storage. From version 0 it is what the
three arms make of it one at a time, also when a later call takes over after the first or the
second of them. -/
structure Upgraded (f : Frame Address) (caller : Address) (legacy : List SLAResult) (s : Storage) :
    Prop where
  reply : (invoke exec ⟨.migrate caller, f⟩ s).reply = .ok .unit
  migrated : Migrated legacy s (migrateCommits f caller s)
  stepwise : (s .storageVersion).getD 0 = 0 →
    migrateCommits f caller s =
      upgrade migrateV2 f (upgrade migrateV1 f (upgrade migrateV0 f s))
  resumed : (s .storageVersion).getD 0 = 0 →
    migrateCommits f caller (upgrade migrateV0 f s) = migrateCommits f caller s ∧
      migrateCommits f caller (upgrade migrateV1 f (upgrade migrateV0 f s)) =
        migrateCommits f caller s
  settled : ∀ g other,
    (invoke exec ⟨.migrate other, g⟩ (migrateCommits f caller s)).storage =
      migrateCommits f caller s ∧
    (invoke exec ⟨.migrate other, g⟩ (migrateCommits f caller s)).events = []

/-- `migrate` by the admin upgrades every legacy storage, and a `migrate` that is unsigned, by
another caller or on a version above the current one fails and commits nothing. -/
structure MigrationSound : Prop where
  upgrades : ∀ (f : Frame Address) (s : Storage) (caller : Address) (legacy : List SLAResult),
    Legacy s legacy → s .admin = some caller → caller ∈ f.auths →
      (s .storageVersion).getD 0 ≤ 2 → Upgraded f caller legacy s
  refuses : ∀ (f : Frame Address) (s : Storage) (caller : Address),
    caller ∉ f.auths ∨ s .admin ≠ some caller ∨ storageVersion < (s .storageVersion).getD 0 →
      ∃ x, invoke exec ⟨.migrate caller, f⟩ s = ⟨s, [], .error x⟩

theorem migration_sound : MigrationSound where
  upgrades := by
    intro f s caller legacy hl hadmin hsigned hold
    obtain ⟨hreply, hcommits⟩ := migrate_runs hadmin hsigned rfl hold
    have hmigrated := migrated_armsFrom f hl ((s .storageVersion).getD 0)
    rw [← hcommits] at hmigrated
    refine ⟨hreply, hmigrated, ?_, ?_, ?_⟩
    · intro hzero
      rw [migrateCommits, hcommits, hzero, upgrade_armsFrom_zero, upgrade_armsFrom_one]
    · intro hzero
      have hup₁ := upgrade_migrateV0 f s
      have hup₂ := upgrade_migrateV1 f (upgrade migrateV0 f s)
      have hadmin₁ := hup₁.retained .admin caller rfl hadmin
      have hadmin₂ := hup₂.retained .admin caller rfl hadmin₁
      have hfrom₁ := migrate_runs hadmin₁ hsigned (congrArg (Option.getD · 0) hup₁.version)
        (by decide)
      have hfrom₂ := migrate_runs hadmin₂ hsigned (congrArg (Option.getD · 0) hup₂.version)
        (by decide)
      have hcommits₁ := hfrom₁.2.trans (upgrade_armsFrom_one f _)
      rw [migrateCommits, migrateCommits, migrateCommits, hcommits₁, hfrom₂.2, hcommits, hzero,
        upgrade_armsFrom_zero, upgrade_armsFrom_one]
      exact ⟨rfl, rfl⟩
    · intro g other
      exact migrate_current hmigrated.version
  refuses := fun _ _ _ h => migrate_refuses h

/-- A storage of version 0 with an admin and two entries of one outage, and nothing else. -/
def bareLegacy : Storage :=
  let entry : SLAResult := ⟨sampleOutage, .met, 5, 15, 750, .rew, .top, 0, 1⟩
  (Store.empty.set .admin ⟨1⟩).set .history [entry, { entry with amount := 375 }]

theorem migration_sound_bareLegacy :
    (History.readAllEntries (migrateCommits ⟨[⟨1⟩], 2, 2⟩ ⟨1⟩ bareLegacy)).map SLAResult.amount =
      [750, 375] := by
  have hlegacy : Legacy bareLegacy ((bareLegacy .history).getD []) := by
    refine ⟨rfl, by decide, ?_⟩
    intro k hk
    cases k <;> simp_all [History.logKeys, History.isHistoryKey, bareLegacy]
  have hup := migration_sound.upgrades ⟨[⟨1⟩], 2, 2⟩ bareLegacy ⟨1⟩ _ hlegacy (by decide)
    (by decide) (by decide)
  rw [hup.migrated.entries]
  decide

end ApexChainx
