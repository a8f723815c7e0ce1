import ApexChainx.Contract.Reads
import ApexChainx.Host.Group
import ApexChainx.Proofs.Migration
import ApexChainx.Proofs.Negotiation

/-!
# Staged upgrades of a group

A group of deployments is upgraded one member at a time, while anyone calls any member. A member
that an older version left behind refuses every call and keeps everything it stores until its
admin signs a `migrate`; from then on it stays on the current version (`Behind.dormant`,
`Member.version_after`). The handshake of `version_negotiation.rs` compares what the members
declare, so it is passed before the first upgrade and after the last one, and blocked in between
(`staged_upgrade`).
-/

namespace ApexChainx

open Host Misc

/-! ## A deployment behind the current version -/

/-- The version check is the first thing the program does. -/
def Versioned {α : Type} (m : Contract α) : Prop :=
  ∃ k, m = Contract.reads checkVersion >>= k

theorem Versioned.bind {α β : Type} {m : Contract α} (h : Versioned m) (k : α → Contract β) :
    Versioned (m >>= k) := by
  obtain ⟨l, rfl⟩ := h
  exact ⟨fun u => l u >>= k, Prog.bind_assoc ..⟩

theorem Versioned.version {α : Type} {m : Contract α} (h : Versioned m) {f : Frame Address}
    {env env' : ContractEnv} {a : α} (hr : m.Returns f env a env') :
    env.storage .storageVersion = some storageVersion := by
  obtain ⟨k, rfl⟩ := h
  obtain ⟨_, hversion, -⟩ := (Prog.returns_reads_bind ..).mp hr
  exact checkVersion_eq_ok.mp hversion

/-- The call is a `migrate`. -/
def Call.isMigrate : Call → Bool
  | .migrate _ => true
  | _ => false

/-- Every entry point but `initialize` and `migrate` checks the version first. -/
theorem exec_versioned {c : Call} (hinit : c.isInitialize = false)
    (hmigrate : c.isMigrate = false) : Versioned (exec c) := by
  cases c
  case initializeContract => cases hinit
  case migrate => cases hmigrate
  all_goals exact Versioned.bind ⟨_, rfl⟩ _

/-- The call is a `migrate` that the admin in the storage signed. -/
def upgrades (s : Storage) (tx : ContractTx) : Bool :=
  match tx.call with
  | .migrate caller => s .admin = some caller ∧ caller ∈ tx.frame.auths
  | _ => false

/-- A deployment that an older version left behind, with its admin and its history vector. -/
structure Behind (admin : Address) (legacy : List SLAResult) (s : Storage) : Prop where
  version : ∃ v : Nat, v ≤ 2 ∧ s .storageVersion = some v
  admin : s .admin = some admin
  history : Legacy s legacy

section Step

variable {admin : Address} {legacy : List SLAResult} {s : Storage} {tx : ContractTx}

/-- A deployment behind refuses every call but the one that upgrades it. -/
theorem Behind.refuses (h : Behind admin legacy s) (hno : upgrades s tx = false) :
    ∃ x, invoke exec tx s = ⟨s, [], .error x⟩ := by
  obtain ⟨v, hold, hv⟩ := h.version
  obtain ⟨call, frame⟩ := tx
  by_cases hmigrate : call.isMigrate = true
  · cases call <;> simp only [Call.isMigrate, Bool.false_eq_true] at hmigrate
    case migrate caller =>
      simp only [upgrades, decide_eq_false_iff_not, not_and] at hno
      exact migrate_refuses (by tauto)
  rcases invoke_cases exec ⟨call, frame⟩ s with ⟨r, env, hr, -⟩ | hrefused
  · exfalso
    by_cases hinit : call.isInitialize = true
    · -- an admin stands, so the deployment is not initialized again
      cases call <;> simp only [Call.isInitialize, Bool.false_eq_true] at hinit
      obtain ⟨-, hm⟩ := returns_replyUnit.mp hr
      simp [initializeContract, h.admin] at hm
    · have hversion := (exec_versioned (by simpa using hinit) (by simpa using hmigrate)).version hr
      have hcurrent : v = 3 := Option.some.inj (hv.symm.trans hversion)
      omega
  · exact hrefused

/-- The call that upgrades a deployment behind makes its vector a sharded history. -/
theorem Behind.upgraded (h : Behind admin legacy s) (hup : upgrades s tx = true) :
    Migrated legacy s (invoke exec tx s).storage := by
  obtain ⟨v, hold, hv⟩ := h.version
  obtain ⟨call, frame⟩ := tx
  cases call <;> simp only [upgrades, Bool.false_eq_true, decide_eq_true_eq] at hup
  case migrate caller =>
    obtain ⟨-, hruns⟩ := migrate_runs hup.1 hup.2 rfl (by simpa [hv] using hold)
    rw [hruns]
    exact migrated_armsFrom frame h.history _

/-- No call leaves the current version. -/
theorem current_stays (hversion : s .storageVersion = some storageVersion) (tx : ContractTx) :
    (invoke exec tx s).storage .storageVersion = some storageVersion := by
  rcases invoke_effect (fun _ _ => hversion) tx with ⟨r, s', evs, he, hi⟩ | ⟨x, hi⟩
  · rw [hi]
    by_cases htouched : tx.call.touches .storageVersion = true
    · generalize tx.call = call at he htouched
      cases he <;> simp [Call.touches, History.isHistoryKey, isTelemetryKey] at htouched
      simp [initializedStorage]
    · exact (he.frame (by simpa using htouched)).trans hversion
  · rw [hi]
    exact hversion

end Step

/-! ## The runs of a member -/

/-- The version a member stores after its calls: the current one from its upgrade on. -/
def stage (s : Storage) (txs : List ContractTx) : Nat :=
  if txs.any (upgrades s) = true then storageVersion else (s .storageVersion).getD 0

/-- A member of a group: on the current version, or behind it. -/
inductive Member (s : Storage) : Prop where
  | current (version : s .storageVersion = some storageVersion)
  | behind (admin : Address) (legacy : List SLAResult) (h : Behind admin legacy s)

section Runs

variable {admin : Address} {legacy : List SLAResult} {s : Storage} {txs : List ContractTx}

theorem current_along (hversion : s .storageVersion = some storageVersion)
    (txs : List ContractTx) : final exec s txs .storageVersion = some storageVersion :=
  invariant_run (I := fun cur : Storage => cur .storageVersion = some storageVersion) hversion
    (fun _ tx hcur => current_stays hcur tx) txs

/-- Until it is upgraded a deployment behind stores what it stored, and refuses every call. -/
theorem Behind.dormant (h : Behind admin legacy s) (hno : txs.any (upgrades s) = false) :
    final exec s txs = s ∧
      ∀ st ∈ trace exec s txs, ∃ x, st.outcome exec = ⟨s, [], .error x⟩ := by
  induction txs with
  | nil => exact ⟨rfl, fun st hst => absurd hst List.not_mem_nil⟩
  | cons tx txs ih =>
    obtain ⟨htx, hrest⟩ := (Bool.or_eq_false_iff.mp (List.any_cons ▸ hno))
    obtain ⟨x, hx⟩ := h.refuses htx
    obtain ⟨hfinal, htrace⟩ := ih hrest
    rw [final_cons, trace, hx]
    refine ⟨hfinal, ?_⟩
    rintro st (_ | ⟨_, hst⟩)
    · exact ⟨x, hx⟩
    · exact htrace st hst

/-- Its first upgrade works on what the older version left. -/
theorem Behind.first_upgrade (h : Behind admin legacy s) {tx : ContractTx}
    (hno : txs.any (upgrades s) = false) (hup : upgrades s tx = true) :
    Migrated legacy s (final exec s (txs ++ [tx])) := by
  rw [final_append, (h.dormant hno).1]
  exact h.upgraded hup

theorem Behind.version_after (h : Behind admin legacy s) (txs : List ContractTx) :
    final exec s txs .storageVersion = some (stage s txs) := by
  obtain ⟨v, -, hv⟩ := h.version
  induction txs with
  | nil => simp [stage, hv]
  | cons tx txs ih =>
    rw [final_cons]
    by_cases hup : upgrades s tx = true
    · rw [current_along (h.upgraded hup).version, stage, if_pos (by simp [hup])]
    · obtain ⟨x, hx⟩ := h.refuses (by simpa using hup)
      rw [hx, ih, stage, stage, List.any_cons, Bool.eq_false_iff.mpr hup, Bool.false_or]

theorem Member.version_after (h : Member s) (txs : List ContractTx) :
    final exec s txs .storageVersion = some (stage s txs) := by
  cases h with
  | current version => simp [current_along version txs, stage, version]
  | behind _ _ h => exact h.version_after txs

end Runs

/-! ## What a member declares -/

/-- The reports of the versions, on a storage of version `v`. -/
structure ReportsVersion (s : Storage) (v : Nat) : Prop where
  stored : getStorageVersion s = .ok v
  migration : getMigrationState s = .ok ⟨v, storageVersion, decide (v ≠ storageVersion)⟩
  info : getVersionInfo s =
    .ok ⟨v, resultSchemaVersion, decide (v ≠ storageVersion), isPaused s, contractName⟩
  declared : getVersionNegotiationInfo s =
    .ok (buildNegotiationInfo v storageVersion (isPaused s))
  health : (healthcheck s).status = .migrate ↔ v ≠ storageVersion
  complete : isMigrationComplete s = true ↔ v = storageVersion

theorem reportsVersion {s : Storage} {v : Nat} (hv : s .storageVersion = some v) :
    ReportsVersion s v where
  stored := by simp [getStorageVersion, hv]
  migration := by simp [getMigrationState, hv, pure, Except.pure]
  info := by simp [getVersionInfo, hv, pure, Except.pure]
  declared := by simp [getVersionNegotiationInfo, hv, pure, Except.pure]
  health := by
    simp only [healthcheck, hv]
    by_cases hcurrent : v = storageVersion
    · by_cases hrenounced : s .adminRenounced = some true <;> simp [hcurrent, hrenounced]
    · simp [hcurrent]
  complete := by simp [isMigrationComplete, hv]

/-- The handshake of a coordinator: it reads what a member and its peers declare, and negotiates
for the member. -/
def handshake (own : Storage) (peers : List Storage) :
    Except SLAError VersionNegotiationResult := do
  let our_info ← getVersionNegotiationInfo own
  let peer_infos ← peers.mapM getVersionNegotiationInfo
  pure (negotiateContractVersions our_info peer_infos)

section Handshake

variable {v w : Nat} {p q : Bool}

/-- Two deployments of the contract are compatible exactly when they store the same version. -/
theorem mutuallyCompatible_declared :
    MutuallyCompatible (buildNegotiationInfo v storageVersion p)
      (buildNegotiationInfo w storageVersion q) ↔ w = v := by
  simp [MutuallyCompatible, ProtocolsMeet, SameSchemas, buildNegotiationInfo, protocolVersion,
    minCompatibleProtocol, eq_comm]

theorem peerMismatches_declared :
    peerMismatches (buildNegotiationInfo v storageVersion p)
        (buildNegotiationInfo w storageVersion q) =
      if w = v then [] else [⟨contractName, w, v, storageDimension⟩] := by
  split
  · rename_i hsame
    exact peerMismatches_eq_nil.mpr (mutuallyCompatible_declared.mpr hsame)
  · rename_i hdiffer
    simp [peerMismatches, PeerCheck.all, PeerCheck.fails, PeerCheck.detail, buildNegotiationInfo,
      protocolVersion, minCompatibleProtocol, contractName, hdiffer]

theorem flatMap_unless {α β : Type} (l : List α) (c : α → Prop) [DecidablePred c] (g : α → β) :
    (l.flatMap fun a => if c a then [] else [g a]) = (l.filter (¬ c ·)).map g := by
  induction l with
  | nil => rfl
  | cons a l ih => by_cases h : c a <;> simp [h, ih]

/-- A handshake between members that store the versions `ver` passes exactly when the peers store
the version of the coordinator, and names every peer that does not. -/
theorem handshake_versions {ι : Type} {now : ι → Storage} {ver : ι → Nat}
    (hver : ∀ i, now i .storageVersion = some (ver i)) (i : ι) (peers : List ι) :
    ∃ result, handshake (now i) (peers.map now) = .ok result ∧
      result.outcome = (if ∀ p ∈ peers, ver p = ver i then .Compatible else .Incompatible) ∧
      result.mismatches = (peers.filter (ver · ≠ ver i)).map fun p =>
        ⟨contractName, ver p, ver i, storageDimension⟩ := by
  let declared := fun p => buildNegotiationInfo (ver p) storageVersion (isPaused (now p))
  have hpeers : (peers.map now).mapM getVersionNegotiationInfo = .ok (peers.map declared) := by
    rw [List.mapM_map]
    exact mapM_ok fun p _ => (reportsVersion (hver p)).declared
  refine ⟨negotiateContractVersions (declared i) (peers.map declared), ?_, ?_, ?_⟩
  · simp only [handshake, (reportsVersion (hver i)).declared, hpeers, ok_bind]
    rfl
  · split
    · rename_i hsame
      refine negotiate_compatible_iff.mpr ?_
      simp only [List.forall_mem_map]
      exact fun p hp => ⟨mutuallyCompatible_declared.mpr (hsame p hp), rfl⟩
    · rename_i hdiffer
      obtain ⟨p, hp, hp'⟩ := not_forall₂.mp hdiffer
      refine negotiate_incompatible_iff.mpr ⟨declared p, List.mem_map_of_mem hp, ?_⟩
      rwa [mutuallyCompatible_declared]
  · rw [negotiate_mismatches, List.flatMap_map]
    simp only [declared, peerMismatches_declared]
    exact flatMap_unless peers (ver · = ver i) _

end Handshake

/-! ## The group -/

section Group

variable {ι : Type} [DecidableEq ι]

/-- The version a member of the group stores after a run of the group. -/
def stageOf (start : ι → Storage) (txs : List (ι × ContractTx)) (i : ι) : Nat :=
  stage (start i) (callsOf i txs)

/-- What holds of a group that was left in the storages `start`, after a run of the group. -/
structure StagedUpgrade (start : ι → Storage) (txs : List (ι × ContractTx)) : Prop where
  dormant : ∀ i admin legacy, Behind admin legacy (start i) →
    (callsOf i txs).any (upgrades (start i)) = false →
      groupFinal exec start txs i = start i ∧
        ∀ st ∈ trace exec (start i) (callsOf i txs),
          ∃ x, st.outcome exec = ⟨start i, [], .error x⟩
  upgraded : ∀ i admin legacy before tx, Behind admin legacy (start i) →
    before ++ [(i, tx)] <+: txs → (callsOf i before).any (upgrades (start i)) = false →
      upgrades (start i) tx = true →
        Migrated legacy (start i) (groupFinal exec start (before ++ [(i, tx)]) i)
  reports : ∀ i, ReportsVersion (groupFinal exec start txs i) (stageOf start txs i)
  negotiation : ∀ (i : ι) (peers : List ι), ∃ result,
    handshake (groupFinal exec start txs i) (peers.map (groupFinal exec start txs)) =
        .ok result ∧
      result.outcome = (if ∀ p ∈ peers, stageOf start txs p = stageOf start txs i
        then .Compatible else .Incompatible) ∧
      result.mismatches = (peers.filter (stageOf start txs · ≠ stageOf start txs i)).map fun p =>
        ⟨contractName, stageOf start txs p, stageOf start txs i, storageDimension⟩
  completes : ∀ members : List ι, ∃ later,
    (∀ t ∈ later, t.1 ∈ members ∧ t.2.call.isMigrate = true) ∧
      ∀ i ∈ members, stageOf start (txs ++ later) i = storageVersion ∧
        ∀ peers ⊆ members, ∃ result,
          handshake (groupFinal exec start (txs ++ later) i)
              (peers.map (groupFinal exec start (txs ++ later))) = .ok result ∧
            result.outcome = .Compatible

variable {start : ι → Storage}

theorem version_of_member (hmember : ∀ i, Member (start i)) (txs : List (ι × ContractTx)) (i : ι) :
    groupFinal exec start txs i .storageVersion = some (stageOf start txs i) := by
  rw [groupFinal_eq]
  exact (hmember i).version_after (callsOf i txs)

/-- The `migrate` of a member, signed by its admin. -/
def migrateOf (start : ι → Storage) (i : ι) : ι × ContractTx :=
  let admin := (start i .admin).getD ⟨0⟩
  (i, ⟨.migrate admin, ⟨[admin], 0, 0⟩⟩)

/-- A member whose admin signs a `migrate` is on the current version. -/
theorem stageOf_migrated {i : ι} (hmember : Member (start i)) {txs : List (ι × ContractTx)}
    (h : migrateOf start i ∈ txs) : stageOf start txs i = storageVersion := by
  unfold stageOf stage
  cases hmember with
  | current version => simp [version]
  | behind admin legacy hbehind =>
    have hup : upgrades (start i) (migrateOf start i).2 = true := by
      simp [migrateOf, upgrades, hbehind.admin]
    have hcall : (migrateOf start i).2 ∈ callsOf i txs := (mem_callsOf i txs).mpr h
    exact if_pos (List.any_eq_true.mpr ⟨_, hcall, hup⟩)

theorem staged_upgrade (start : ι → Storage) (hmember : ∀ i, Member (start i))
    (txs : List (ι × ContractTx)) : StagedUpgrade start txs where
  dormant := by
    intro i admin legacy hbehind hno
    rw [groupFinal_eq]
    exact hbehind.dormant hno
  upgraded := by
    intro i admin legacy before tx hbehind _ hno hup
    rw [groupFinal_eq, callsOf_append, callsOf_cons_self, callsOf_nil]
    exact hbehind.first_upgrade hno hup
  reports := fun i => reportsVersion (version_of_member hmember txs i)
  negotiation := fun i peers => handshake_versions (version_of_member hmember txs) i peers
  completes := by
    intro members
    let later := members.map (migrateOf start)
    have hdone : ∀ i ∈ members, stageOf start (txs ++ later) i = storageVersion := fun i hi =>
      stageOf_migrated (hmember i) (List.mem_append_right txs (List.mem_map_of_mem hi))
    refine ⟨later, ?_, ?_⟩
    · simp only [later, List.forall_mem_map]
      exact fun i hi => ⟨hi, rfl⟩
    · intro i hi
      refine ⟨hdone i hi, ?_⟩
      intro peers hpeers
      obtain ⟨result, hresult, houtcome, -⟩ :=
        handshake_versions (version_of_member hmember (txs ++ later)) i peers
      refine ⟨result, hresult, houtcome.trans (if_pos ?_)⟩
      intro p hp
      rw [hdone p (hpeers hp), hdone i hi]

end Group

/-- A group of two: one that version 2 left behind, and one just initialized. -/
def mixedGroup : Bool → Storage
  | false => bareLegacy.set .storageVersion 2
  | true => after launch

theorem member_mixedGroup (i : Bool) : Member (mixedGroup i) := by
  cases i
  case true => exact .current (by decide)
  case false =>
    refine .behind ⟨1⟩ ((bareLegacy .history).getD []) ⟨⟨2, by decide, rfl⟩, by decide, ?_⟩
    refine ⟨rfl, by decide, ?_⟩
    intro k hk
    cases k <;> simp_all [History.logKeys, History.isHistoryKey, mixedGroup, bareLegacy]

/-- Both are called before the first is upgraded. -/
theorem staged_upgrade_mixedGroup : StagedUpgrade mixedGroup
    [(false, submitTen 2 critical), (true, submitTen 2 critical),
      (false, ⟨.migrate ⟨1⟩, ⟨[⟨1⟩], 3, 3⟩⟩)] :=
  staged_upgrade mixedGroup member_mixedGroup _

end ApexChainx
