import ApexChainx.Proofs.Bundles
import ApexChainx.Proofs.Recovery

/-!
# Which configurations can be reached

`set_config` writes one severity at a time, and each write must leave the severities ordered. The
configurations of a running contract are therefore the orderly ones (`Tiers.Orderly`), and all of
them: seven updates, the same whatever the contract held before, lead from any orderly
configuration to any other (`route_leads`). So a standing admin is never stuck with a
configuration, and a renounced one leaves it as it is (`configurations_reachable`).
-/

namespace ApexChainx

open Host Misc

/-! ## Updates of four tiers -/

/-- The configurations of critical, high, medium and low. -/
structure Tiers where
  c : SLAConfig
  h : SLAConfig
  m : SLAConfig
  l : SLAConfig

/-- The validation of the severity accepts the configuration. -/
def Accepted (severity : Symbol) (cfg : SLAConfig) : Prop :=
  validateConfig severity cfg.threshold_minutes cfg.penalty_per_minute cfg.reward_base = .ok ()

/-- Each tier is accepted; the thresholds do not fall and, down to medium, the penalties do not rise
from one tier to the next. -/
structure Tiers.Orderly (t : Tiers) : Prop where
  accepted : Accepted critical t.c ∧ Accepted high t.h ∧ Accepted medium t.m ∧ Accepted low t.l
  thresholds : t.c.threshold_minutes ≤ t.h.threshold_minutes ∧
    t.h.threshold_minutes ≤ t.m.threshold_minutes ∧ t.m.threshold_minutes ≤ t.l.threshold_minutes
  penalties : t.h.penalty_per_minute ≤ t.c.penalty_per_minute ∧
    t.m.penalty_per_minute ≤ t.h.penalty_per_minute

/-- One tier is written, compared with its neighbours only. The penalty of low is compared with
none, but that of medium is compared with it. -/
inductive Tiers.Update : Tiers → Symbol → SLAConfig → Tiers → Prop
  | atCritical {t cfg} (accepted : Accepted critical cfg)
      (below : cfg.threshold_minutes ≤ t.h.threshold_minutes)
      (dearer : t.h.penalty_per_minute ≤ cfg.penalty_per_minute) :
      Update t critical cfg { t with c := cfg }
  | atHigh {t cfg} (accepted : Accepted high cfg)
      (above : t.c.threshold_minutes ≤ cfg.threshold_minutes)
      (below : cfg.threshold_minutes ≤ t.m.threshold_minutes)
      (cheaper : cfg.penalty_per_minute ≤ t.c.penalty_per_minute)
      (dearer : t.m.penalty_per_minute ≤ cfg.penalty_per_minute) :
      Update t high cfg { t with h := cfg }
  | atMedium {t cfg} (accepted : Accepted medium cfg)
      (above : t.h.threshold_minutes ≤ cfg.threshold_minutes)
      (below : cfg.threshold_minutes ≤ t.l.threshold_minutes)
      (cheaper : cfg.penalty_per_minute ≤ t.h.penalty_per_minute)
      (dearer : t.l.penalty_per_minute ≤ cfg.penalty_per_minute) :
      Update t medium cfg { t with m := cfg }
  | atLow {t cfg} (accepted : Accepted low cfg)
      (above : t.m.threshold_minutes ≤ cfg.threshold_minutes) :
      Update t low cfg { t with l := cfg }

/-- Updates in sequence. -/
inductive Tiers.Path : Tiers → List (Symbol × SLAConfig) → Tiers → Prop
  | nil {t} : Path t [] t
  | cons {t t' t'' severity cfg updates} (update : Update t severity cfg t')
      (path : Path t' updates t'') : Path t ((severity, cfg) :: updates) t''

/-- The widest low tier. -/
def widestLow : SLAConfig := ⟨1440, 1, 100000⟩

/-- The strictest tier, accepted for critical and for high. -/
def strictest : SLAConfig := ⟨1, 10000, 100000⟩

/-- First low, critical and high make room for any medium tier, then each tier gets its target. -/
def route (t : Tiers) : List (Symbol × SLAConfig) :=
  [(low, widestLow), (critical, strictest), (high, strictest), (medium, t.m), (high, t.h),
    (critical, t.c), (low, t.l)]

/-- The bounds that the route relies on. -/
theorem Accepted.bounds {severity : Symbol} {cfg : SLAConfig} (h : Accepted severity cfg) :
    1 ≤ cfg.threshold_minutes ∧ cfg.threshold_minutes ≤ 1440 ∧ 1 ≤ cfg.penalty_per_minute ∧
      cfg.penalty_per_minute ≤ 10000 := by
  obtain ⟨-, threshold, penalty, -⟩ := inBounds_of_validateConfig h
  omega

/-- From any orderly tiers the route leads to any others. -/
theorem route_leads {t₀ t : Tiers} (h₀ : t₀.Orderly) (h : t.Orderly) : t₀.Path (route t) t := by
  obtain ⟨-, hh₀, hm₀, -⟩ := h₀.accepted
  obtain ⟨hc, hh, hm, hl⟩ := h.accepted
  have hhigh₀ := hh₀.bounds
  have hmedium₀ := hm₀.bounds
  have hhigh := hh.bounds
  have hmedium := hm.bounds
  obtain ⟨hct, hht, hmt⟩ := h.thresholds
  obtain ⟨hcp, hhp⟩ := h.penalties
  have hwidest : Accepted low widestLow := by rfl
  have hcritical : Accepted critical strictest := by rfl
  have hhighest : Accepted high strictest := by rfl
  refine .cons (.atLow hwidest ?_) ?_
  · exact hmedium₀.2.1
  refine .cons (.atCritical hcritical ?_ ?_) ?_
  · exact hhigh₀.1
  · exact hhigh₀.2.2.2
  refine .cons (.atHigh hhighest le_rfl ?_ le_rfl ?_) ?_
  · exact hmedium₀.1
  · exact hmedium₀.2.2.2
  refine .cons (.atMedium hm ?_ ?_ ?_ ?_) ?_
  · exact hmedium.1
  · exact hmedium.2.1
  · exact hmedium.2.2.2
  · exact hmedium.2.2.1
  refine .cons (.atHigh hh ?_ hht ?_ hhp) ?_
  · exact hhigh.1
  · exact hhigh.2.2.2
  exact .cons (.atCritical hc hct hcp) (.cons (.atLow hl hmt) .nil)

/-! ## The stored tiers -/

/-- What `get_config_snapshot` answers for the tiers. -/
def Tiers.snapshot (t : Tiers) : SLAConfigSnapshot :=
  ⟨symbolShort "v1" snapshotVersion_wellFormed,
    [⟨critical, t.c⟩, ⟨high, t.h⟩, ⟨medium, t.m⟩, ⟨low, t.l⟩]⟩

/-- The storage holds the tiers. -/
def Holds (s : Storage) (t : Tiers) : Prop :=
  ∃ configs, s .config = some configs ∧ Canonical configs t.c t.h t.m t.l

section Stored

variable {s s' : Storage} {t t' : Tiers}

theorem Holds.orderly (h : Holds s t) : t.Orderly := by
  obtain ⟨configs, -, hc⟩ := h
  refine ⟨⟨?_, ?_, ?_, ?_⟩, hc.thresholds, hc.penalties⟩
  · exact hc.valid _ _ hc.critical
  · exact hc.valid _ _ hc.high
  · exact hc.valid _ _ hc.medium
  · exact hc.valid _ _ hc.low

theorem Holds.snapshot (h : Holds s t) (version : s .storageVersion = some storageVersion) :
    getConfigSnapshot s = .ok t.snapshot := by
  obtain ⟨configs, stored, hc⟩ := h
  have hcheck := checkVersion_eq_ok (u := ()).mpr version
  rw [getConfigSnapshot, hcheck, ok_bind, snapshot_of_canonical hc stored]
  rfl

theorem ConfigSound.holds (hs : ConfigSound s) : ∃ t, Holds s t := by
  obtain ⟨configs, c, h, m, l, stored, hc, -⟩ := hs.canonical
  exact ⟨⟨c, h, m, l⟩, configs, stored, hc⟩

theorem Tiers.snapshot_inj (h : t.snapshot = t'.snapshot) : t = t' := by
  cases t
  cases t'
  simpa [Tiers.snapshot] using h

/-- The snapshot shows the stored tiers. -/
theorem ConfigSound.holds_iff (hs : ConfigSound s) :
    Holds s t ↔ getConfigSnapshot s = .ok t.snapshot := by
  constructor
  · exact fun h => h.snapshot hs.version
  · intro hsnapshot
    obtain ⟨t', h'⟩ := hs.holds
    rw [h'.snapshot hs.version, Except.ok.injEq] at hsnapshot
    exact Tiers.snapshot_inj hsnapshot ▸ h'

variable {severity : Symbol} {cfg : SLAConfig}

/-- An update passes the checks of `set_config`. -/
theorem Tiers.Update.acceptable (hu : t.Update severity cfg t') (h : Holds s t) :
    Acceptable s severity cfg := by
  obtain ⟨configs, stored, hc⟩ := h
  cases hu with
  | atCritical accepted below dearer =>
    exact ⟨accepted,
      by simpa [validateCrossSeverityPenaltyOrdering, stored, checkNeighbour, canonicalSeverities,
        hc.high] using dearer,
      by simpa [validateCrossSeverityThresholdOrdering, stored, checkNeighbour, canonicalSeverities,
        hc.high] using below⟩
  | atHigh accepted above below cheaper dearer =>
    exact ⟨accepted,
      by simpa [validateCrossSeverityPenaltyOrdering, stored, checkNeighbour, canonicalSeverities,
        hc.critical, hc.medium] using And.intro dearer cheaper,
      by simpa [validateCrossSeverityThresholdOrdering, stored, checkNeighbour, canonicalSeverities,
        hc.critical, hc.medium] using And.intro below above⟩
  | atMedium accepted above below cheaper dearer =>
    exact ⟨accepted,
      by simpa [validateCrossSeverityPenaltyOrdering, stored, checkNeighbour, canonicalSeverities,
        hc.high, hc.low] using And.intro dearer cheaper,
      by simpa [validateCrossSeverityThresholdOrdering, stored, checkNeighbour, canonicalSeverities,
        hc.high, hc.low] using And.intro below above⟩
  | atLow accepted above =>
    exact ⟨accepted,
      by simp [validateCrossSeverityPenaltyOrdering, stored, canonicalSeverities],
      by simpa [validateCrossSeverityThresholdOrdering, stored, checkNeighbour, canonicalSeverities,
        hc.medium] using above⟩

/-- And only an update does. -/
theorem Acceptable.update (hok : Acceptable s severity cfg) (h : Holds s t) :
    ∃ t', t.Update severity cfg t' := by
  obtain ⟨configs, stored, hc⟩ := h
  obtain ⟨valid, penalties, thresholds⟩ := hok
  have canonical := isCanonicalSeverity_iff.mp (inBounds_of_validateConfig valid).1
  simp only [canonicalSeverities, List.mem_cons, List.not_mem_nil, or_false] at canonical
  simp [validateCrossSeverityPenaltyOrdering, validateCrossSeverityThresholdOrdering, stored]
    at penalties thresholds
  rcases canonical with rfl | rfl | rfl | rfl
  · simp [checkNeighbour, canonicalSeverities, hc.high] at penalties thresholds
    exact ⟨_, .atCritical valid thresholds penalties⟩
  · simp [checkNeighbour, canonicalSeverities, hc.critical, hc.medium] at penalties thresholds
    exact ⟨_, .atHigh valid thresholds.2 thresholds.1 penalties.2 penalties.1⟩
  · simp [checkNeighbour, canonicalSeverities, hc.high, hc.low] at penalties thresholds
    exact ⟨_, .atMedium valid thresholds.2 thresholds.1 penalties.2 penalties.1⟩
  · simp [checkNeighbour, canonicalSeverities, hc.medium] at thresholds
    exact ⟨_, .atLow valid thresholds⟩

/-- A canonical map is canonical with the configurations it holds. -/
theorem canonical_of_gets {configs : OrdMap Symbol SLAConfig} {c h m l c' h' m' l' : SLAConfig}
    (hc : Canonical configs c' h' m' l') (gc : configs.get critical = some c)
    (gh : configs.get high = some h) (gm : configs.get medium = some m)
    (gl : configs.get low = some l) : Canonical configs c h m l := by
  obtain rfl := Option.some.inj (hc.critical.symm.trans gc)
  obtain rfl := Option.some.inj (hc.high.symm.trans gh)
  obtain rfl := Option.some.inj (hc.medium.symm.trans gm)
  obtain rfl := Option.some.inj (hc.low.symm.trans gl)
  exact hc

/-- The map it writes holds the tiers it leads to. -/
theorem Tiers.Update.holds (hu : t.Update severity cfg t') (h : Holds s t)
    {configs : OrdMap Symbol SLAConfig} (stored : s .config = some configs)
    (config : s' .config = some (configs.set severity cfg)) : Holds s' t' := by
  have hok := hu.acceptable h
  obtain ⟨configs', hstored, hc⟩ := h
  obtain rfl : configs = configs' := Option.some.inj (stored.symm.trans hstored)
  obtain ⟨c', h', m', l', hc'⟩ := hc.set stored hok
  refine ⟨_, config, ?_⟩
  have same := OrdMap.get_set_same configs severity cfg
  have ne_of : ∀ {a : Symbol}, a ≠ severity → (configs.set severity cfg).get a = configs.get a :=
    fun hne => OrdMap.get_set_other configs hne cfg
  cases hu with
  | atCritical =>
    exact canonical_of_gets hc' same ((ne_of (by decide)).trans hc.high)
      ((ne_of (by decide)).trans hc.medium) ((ne_of (by decide)).trans hc.low)
  | atHigh =>
    exact canonical_of_gets hc' ((ne_of (by decide)).trans hc.critical) same
      ((ne_of (by decide)).trans hc.medium) ((ne_of (by decide)).trans hc.low)
  | atMedium =>
    exact canonical_of_gets hc' ((ne_of (by decide)).trans hc.critical)
      ((ne_of (by decide)).trans hc.high) same ((ne_of (by decide)).trans hc.low)
  | atLow =>
    exact canonical_of_gets hc' ((ne_of (by decide)).trans hc.critical)
      ((ne_of (by decide)).trans hc.high)
      ((ne_of (by decide)).trans hc.medium) same

end Stored

/-! ## The calls of the route -/

/-- The call that makes an update. -/
def updateCall (admin : Address) (update : Symbol × SLAConfig) : Call :=
  .setConfig admin update.1 update.2.threshold_minutes update.2.penalty_per_minute
    update.2.reward_base

/-- The calls by which the admin configures the tiers. -/
def reconfiguration (admin : Address) (t : Tiers) : List Call :=
  .unfreezeConfig admin :: (route t).map (updateCall admin)

/-- The keys they may write. -/
def reconfigurationKeys : List StorageKey :=
  [.config, .configCount, .lastCfgUpdate, .configRegistry, .freeze]

/-- The calls go through, leave the tiers configured and nothing else changed. -/
structure Reconfigures (s : Storage) (later : List ContractTx) (t : Tiers) : Prop where
  succeed : ∀ st ∈ trace exec s later, succeeds st = true
  snapshot : getConfigSnapshot (final exec s later) = .ok t.snapshot
  kept : ∀ k, k ∉ reconfigurationKeys → final exec s later k = s k

/-- A sound configuration that its admin can update. -/
structure Tunable (admin : Address) (s : Storage) : Prop where
  sound : ConfigSound s
  admin : s .admin = some admin
  standing : s .adminRenounced = none
  thawed : isConfigFrozen s = false

section Calls

variable {s : Storage} {admin : Address} {t t' : Tiers} {severity : Symbol} {cfg : SLAConfig}
  {f : Frame Address}

theorem setConfig_returns (hs : Tunable admin s) (signed : admin ∈ f.auths)
    (hok : Acceptable s severity cfg) :
    ∃ env', (setConfig admin severity cfg.threshold_minutes cfg.penalty_per_minute
      cfg.reward_base).Returns f ⟨s, [], []⟩ () env' := by
  obtain ⟨configs, -, -, -, -, stored, -⟩ := hs.sound.canonical
  have hset : ConfigSound (((s.set .config (configs.set severity cfg)).set .configCount
      (configs.set severity cfg).len).set .lastCfgUpdate f.sequence) :=
    hs.sound.update stored hok (by simp) (by simp) (by simp)
  obtain ⟨hash, snapshot, hhash, hsnapshot⟩ := hset.bundle
  simp [setConfig, recordConfigUpdate, recordConfigRegistry, hs.sound.version, signed, hs.standing,
    hs.admin, hs.thawed, stored, hok.valid, hok.penalties, hok.thresholds, hhash, hsnapshot]

/-- An update by the admin goes through and keeps the configuration tunable. -/
theorem Tunable.update (hs : Tunable admin s) (h : Holds s t) (hu : t.Update severity cfg t')
    (signed : admin ∈ f.auths) :
    ∃ r s' evs, invoke exec ⟨updateCall admin (severity, cfg), f⟩ s = ⟨s', evs, .ok r⟩ ∧
      Tunable admin s' ∧ Holds s' t' ∧ ∀ k, k ∉ reconfigurationKeys → s' k = s k := by
  obtain ⟨r, s', evs, he, hi⟩ := effect_of_program (c := updateCall admin (severity, cfg)) rfl
    (fun _ _ => hs.sound.version) (setConfig_returns hs signed (hu.acceptable h))
  refine ⟨r, s', evs, hi, ⟨he.configSound hs.sound, ?_, ?_, ?_⟩, ?_, ?_⟩
  · rw [he.frame rfl]; exact hs.admin
  · rw [he.frame rfl]; exact hs.standing
  · rw [isConfigFrozen, he.frame rfl]; exact hs.thawed
  · simp only [updateCall] at he
    cases he with
    | configSet _ _ _ _ _ stored => exact hu.holds h stored (by simp [registered])
  · intro k hk
    simp only [reconfigurationKeys, List.mem_cons, List.not_mem_nil, or_false, not_or] at hk
    exact he.frame (by simp [updateCall, Call.touches, hk])

theorem Reconfigures.cons {tx : ContractTx} {later : List ContractTx} {s' : Storage} {r : Reply}
    {evs : List Event} (hi : invoke exec tx s = ⟨s', evs, .ok r⟩)
    (hkept : ∀ k, k ∉ reconfigurationKeys → s' k = s k) (h : Reconfigures s' later t) :
    Reconfigures s (tx :: later) t := by
  have hfinal : final exec s (tx :: later) = final exec s' later := by rw [final_cons, hi]
  refine ⟨?_, ?_, ?_⟩
  · simp only [trace, hi, List.mem_cons]
    rintro st (rfl | hst)
    · exact succeeds_of_ok hi
    · exact h.succeed st hst
  · rw [hfinal]
    exact h.snapshot
  · intro k hk
    rw [hfinal, h.kept k hk, hkept k hk]

/-- The admin's calls follow a path. -/
theorem Tiers.Path.followed {updates : List (Symbol × SLAConfig)} (path : t.Path updates t')
    (hs : Tunable admin s) (h : Holds s t) {later : List ContractTx}
    (hcalls : later.map Tx.call = updates.map (updateCall admin))
    (signed : ∀ tx ∈ later, admin ∈ tx.frame.auths) : Reconfigures s later t' := by
  induction path generalizing s later with
  | nil =>
    obtain rfl : later = [] := by simpa using hcalls
    exact ⟨by simp [trace], h.snapshot hs.sound.version, fun _ _ => rfl⟩
  | cons update path ih =>
    obtain ⟨⟨call, frame⟩, rest, rfl, rfl, hrest⟩ := List.map_eq_cons_iff.mp hcalls
    obtain ⟨r, s', evs, hi, hs', h', hkept⟩ := hs.update h update (signed _ List.mem_cons_self)
    exact (ih hs' h' hrest fun tx htx => signed tx (List.mem_cons_of_mem _ htx)).cons hi hkept

/-- A standing admin can configure any orderly tiers, in eight calls. -/
theorem Healthy.reconfigures (hs : Healthy s) (hadmin : s .admin = some admin)
    (standing : s .adminRenounced = none) (ht : t.Orderly) {later : List ContractTx}
    (hcalls : later.map Tx.call = reconfiguration admin t)
    (signed : ∀ tx ∈ later, admin ∈ tx.frame.auths) : Reconfigures s later t := by
  obtain ⟨⟨call, frame⟩, rest, rfl, rfl, hrest⟩ := List.map_eq_cons_iff.mp hcalls
  obtain ⟨r, s', evs, he, hi⟩ := effect_of_program (c := .unfreezeConfig admin) rfl
    hs.regular.current
    (unfreezeConfig_returns ⟨hs.version, signed _ List.mem_cons_self, standing, hadmin⟩)
  have hs' : Tunable admin s' := by
    refine ⟨he.configSound hs.config, (he.frame rfl).trans hadmin,
      (he.frame rfl).trans standing, ?_⟩
    cases he with
    | thawed => simp [isConfigFrozen]
    | stillThawed _ thawed => exact thawed
  obtain ⟨t₀, h₀⟩ := hs'.sound.holds
  have later := (route_leads h₀.orderly ht).followed hs' h₀ hrest
    fun tx htx => signed tx (List.mem_cons_of_mem _ htx)
  refine later.cons hi fun k hk => ?_
  simp only [reconfigurationKeys, List.mem_cons, List.not_mem_nil, or_false, not_or] at hk
  exact he.frame (by simp [Call.touches, hk])

end Calls

/-! ## Reachability -/

/-- Some calls other than `initialize` lead to a state that reads the tiers. -/
def Reachable (txs : List ContractTx) (t : Tiers) : Prop :=
  ∃ later : List ContractTx, (∀ tx ∈ later, tx.call.isInitialize = false) ∧
    getConfigSnapshot (after (txs ++ later)) = .ok t.snapshot

/-- The tiers that the calls after `txs` can configure: while the admin stands exactly the orderly
ones, each by the eight calls of `reconfiguration` at any times; after that only the stored ones.
And `set_config` takes exactly the updates of the tiers. -/
structure ReachesExactly (txs : List ContractTx) : Prop where
  guarded : ∀ t : Tiers, getConfigSnapshot (after txs) = .ok t.snapshot → ∀ f admin severity cfg,
    ByAdmin f (after txs) admin → isConfigFrozen (after txs) = false →
      (succeeds ⟨after txs, ⟨updateCall admin (severity, cfg), f⟩⟩ = true ↔
        ∃ t', t.Update severity cfg t')
  standing : after txs .adminRenounced = none → ∀ t, Reachable txs t ↔ t.Orderly
  renounced : (after txs .adminRenounced).isSome = true →
    ∀ t, Reachable txs t ↔ getConfigSnapshot (after txs) = .ok t.snapshot
  reconfigures : ∀ admin, after txs .admin = some admin → after txs .adminRenounced = none →
    ∀ t : Tiers, t.Orderly → ∀ later : List ContractTx,
      later.map Tx.call = reconfiguration admin t → (∀ tx ∈ later, admin ∈ tx.frame.auths) →
        Reconfigures (after txs) later t

/-- Under the mark of a renunciation only `initialize` writes the configuration. -/
theorem Effect.config_sealed {f : Frame Address} {s s' : Storage} {c : Call} {r : Reply}
    {evs : List Event} (he : Effect f s c r s' evs) (hmark : (s .adminRenounced).isSome = true)
    (hinit : c.isInitialize = false) : s' .config = s .config := by
  by_cases htouched : c.touches .config = true
  · cases he <;> simp [Call.touches, Call.isInitialize, History.isHistoryKey, isTelemetryKey]
      at htouched hinit
    case configSet by_admin _ _ _ _ _ =>
      rw [by_admin.standing] at hmark
      cases hmark
  · exact he.frame (by simpa using htouched)

theorem sealed_along {txs : List ContractTx} (h : (after txs .adminRenounced).isSome = true)
    {later : List ContractTx} (hlater : ∀ tx ∈ later, tx.call.isInitialize = false) :
    after (txs ++ later) .config = after txs .config := by
  refine (stretch_induction txs (P := fun later s =>
    (∀ t ∈ later, t.call.isInitialize = false) →
      (s .adminRenounced).isSome = true ∧ s .config = after txs .config)
    (fun _ => ⟨h, rfl⟩) ?_ ?_ later hlater).2
  · intro later tx r s' evs ih he _ hlater
    obtain ⟨hmark, hconfig⟩ := ih fun t ht => hlater t (List.mem_append_left _ ht)
    exact ⟨he.stays_renounced hmark, (he.config_sealed hmark (hlater tx (by simp))).trans hconfig⟩
  · exact fun later tx x ih _ hlater => ih fun t ht => hlater t (List.mem_append_left _ ht)

/-- The configurations that can be reached, after every run in which `initialize` succeeded. -/
theorem configurations_reachable (txs : List ContractTx) (hinit : 0 < initializations txs) :
    ReachesExactly txs := by
  have hs : Healthy (after txs) := healthy_of_stored (configSound_after hinit).version
  have hsound : ∀ later, ConfigSound (after (txs ++ later)) := fun later =>
    configSound_after (hinit.trans_le (initializations_le (List.prefix_append txs later)))
  constructor
  case guarded =>
    intro t hread f admin severity cfg by_admin thawed
    have hholds : Holds (after txs) t := hs.config.holds_iff.mpr hread
    constructor
    · intro hsucceeds
      obtain ⟨r, s', evs, he, -⟩ := effect_of_succeeds (current_after txs) hsucceeds
      simp only [updateCall] at he
      cases he with
      | configSet _ _ valid penalties thresholds _ =>
        exact Acceptable.update ⟨valid, penalties, thresholds⟩ hholds
    · rintro ⟨t', hu⟩
      have hs' : Tunable admin (after txs) :=
        ⟨hs.config, by_admin.admin, by_admin.standing, thawed⟩
      obtain ⟨r, s', evs, hi, -⟩ := hs'.update hholds hu by_admin.signed
      exact succeeds_of_ok hi
  case standing =>
    intro standing t
    constructor
    · rintro ⟨later, -, hread⟩
      exact ((hsound later).holds_iff.mpr hread).orderly
    · intro ht
      obtain ⟨admin, hadmin⟩ := (manned_after hinit).admin standing
      let later : List ContractTx := (reconfiguration admin t).map (⟨·, ⟨[admin], 0, 0⟩⟩)
      have hcalls : later.map Tx.call = reconfiguration admin t := by
        simp [later, Function.comp_def]
      refine ⟨later, ?_, ?_⟩
      · simp [later, reconfiguration, updateCall, route, Call.isInitialize]
      · have hreconfigures := hs.reconfigures hadmin standing ht hcalls (by simp [later])
        rw [after, final_append]
        exact hreconfigures.snapshot
  case renounced =>
    intro hmark t
    constructor
    · rintro ⟨later, hlater, hread⟩
      obtain ⟨configs, stored, hc⟩ := (hsound later).holds_iff.mpr hread
      rw [sealed_along hmark hlater] at stored
      exact hs.config.holds_iff.mp ⟨configs, stored, hc⟩
    · exact fun hread => ⟨[], by simp, by simpa using hread⟩
  case reconfigures =>
    exact fun admin hadmin standing t ht later hcalls signed =>
      hs.reconfigures hadmin standing ht hcalls signed

/-- After `launch` the admin can give every tier the strictest terms its severity accepts. -/
theorem configurations_reachable_launch : Reachable launch
    ⟨strictest, strictest, strictest, ⟨1, 100, 100000⟩⟩ := by
  refine ((configurations_reachable launch (by decide)).standing (by decide) _).mpr ?_
  exact ⟨⟨rfl, rfl, rfl, rfl⟩, by decide, by decide⟩

end ApexChainx
