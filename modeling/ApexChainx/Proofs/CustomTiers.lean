import ApexChainx.Proofs.ConfigInvariant

/-!
# The custom severities

`set_custom_severity` checks the general bounds and that the severity is not canonical, but not
the reward/penalty consistency that `validate_config` enforces on the canonical configurations.
So the registered custom severities are consistent exactly as long as no registration is
inconsistent (`customs_consistent_iff`).
-/

namespace ApexChainx

open Host Misc

/-- The cross-parameter rule of `validate_config`. -/
def Consistent (cfg : SLAConfig) : Prop := cfg.penalty_per_minute * 3 < cfg.reward_base * 2

/-- The canonical configurations are consistent. -/
theorem consistent_of_validateConfig {severity : Symbol} {cfg : SLAConfig} {u : Unit}
    (h : validateConfig severity cfg.threshold_minutes cfg.penalty_per_minute cfg.reward_base =
      .ok u) : Consistent cfg := by
  simp only [validateConfig, bind_eq_ok, okOr_eq_ok, refuseIf_eq_ok] at h
  obtain ⟨_, -, _, -, _, -, penalties, hpenalties, rewards, hrewards, hlt⟩ := h
  rw [checked_eq_some hpenalties, checked_eq_some hrewards] at hlt
  exact Int.not_le.mp hlt

/-- Every registered custom severity is not canonical, within the general bounds, and
consistent. -/
structure CustomsConsistent (s : Storage) : Prop where
  sound : CustomSound s
  consistent : ∀ severity cfg, (customConfigs s).get severity = some cfg → Consistent cfg

/-- A registration that `set_custom_severity` accepts, of an inconsistent configuration: on a
thawed contract the admin registers parameters within the general bounds. -/
def RegistersInconsistent (st : ContractStep) : Prop :=
  ∃ caller severity cfg,
    st.tx.call = .setCustomSeverity caller severity cfg.threshold_minutes
      cfg.penalty_per_minute cfg.reward_base ∧
    ByAdmin st.tx.frame st.pre caller ∧ isConfigFrozen st.pre = false ∧
    isCanonicalSeverity severity = false ∧ InBounds cfg ∧ ¬ Consistent cfg

section Steps

variable {f : Frame Address} {s s' : Storage} {c : Call} {r : Reply} {evs : List Event}

/-- A call that registers nothing inconsistent keeps the custom severities consistent. -/
theorem Effect.customsConsistent (he : Effect f s c r s' evs) (hs : CustomsConsistent s)
    (hregisters : ¬ RegistersInconsistent ⟨s, ⟨c, f⟩⟩) : CustomsConsistent s' := by
  refine ⟨he.customSound hs.sound, he.customConfigs_all hs.consistent ?_⟩
  intro caller severity cfg hcall by_admin thawed custom bounds
  by_contra hinconsistent
  exact hregisters ⟨caller, severity, cfg, hcall, by_admin, thawed, custom, bounds, hinconsistent⟩

/-- A registered configuration is in the map. -/
theorem Effect.registers {caller : Address} {severity : Symbol} {cfg : SLAConfig}
    (he : Effect f s (.setCustomSeverity caller severity cfg.threshold_minutes
      cfg.penalty_per_minute cfg.reward_base) r s' evs) :
    (customConfigs s').get severity = some cfg := by
  cases he
  simp [customConfigs, registered]

end Steps

/-- A configured contract lets every admissible registration through. -/
theorem setCustomSeverity_returns {f : Frame Address} {s : Storage} (hs : ConfigSound s)
    {caller : Address} {severity : Symbol} {cfg : SLAConfig} (by_admin : ByAdmin f s caller)
    (thawed : isConfigFrozen s = false) (custom : isCanonicalSeverity severity = false)
    (bounds : InBounds cfg) :
    ∃ env', (setCustomSeverity caller severity cfg.threshold_minutes cfg.penalty_per_minute
      cfg.reward_base).Returns f ⟨s, [], []⟩ () env' := by
  obtain ⟨version, signed, standing, admin⟩ := by_admin
  have hset : ConfigSound ((s.set .customConfig ((customConfigs s).set severity cfg)).set
      .lastCfgUpdate f.sequence) := hs.congr (by simp) (by simp) (by simp)
  obtain ⟨hash, snapshot, hhash, hsnapshot⟩ := hset.bundle
  simp [setCustomSeverity, version, signed, standing, admin, thawed, custom]
  exact ⟨⟨(), validateGeneralBounds_eq_ok.mpr bounds⟩, ⟨hash, hhash⟩, snapshot, hsnapshot⟩

/-- An inconsistent registration goes through. -/
theorem not_customsConsistent_of_registers {txs : List ContractTx} {tx : ContractTx}
    (h : RegistersInconsistent ⟨after txs, tx⟩) :
    ¬ CustomsConsistent (invoke exec tx (after txs)).storage := by
  obtain ⟨call, f⟩ := tx
  obtain ⟨caller, severity, cfg, rfl, by_admin, thawed, custom, bounds, hinconsistent⟩ := h
  obtain ⟨env', hreturns⟩ := setCustomSeverity_returns (configSound_of_stored by_admin.version)
    by_admin thawed custom bounds
  have hsucceeds : succeeds ⟨after txs, ⟨.setCustomSeverity caller severity cfg.threshold_minutes
      cfg.penalty_per_minute cfg.reward_base, f⟩⟩ = true :=
    succeeds_of_returns (r := .unit) ((Prog.returns_bind ..).mpr ⟨(), env', hreturns, rfl⟩)
  obtain ⟨r, s', evs, he, hi⟩ := effect_of_succeeds (current_after txs) hsucceeds
  rw [hi]
  intro hconsistent
  exact hinconsistent (hconsistent.consistent severity cfg he.registers)

/-- All along a run the registered custom severities are non-canonical, within the bounds and
consistent, exactly when no call of the run registers an inconsistent one. -/
theorem customs_consistent_iff (txs : List ContractTx) :
    (∀ before, before <+: txs → CustomsConsistent (after before)) ↔
      ∀ st ∈ steps txs, ¬ RegistersInconsistent st := by
  refine holds_along_iff (I := fun _ => True) (P := fun txs => CustomsConsistent (after txs))
    ?_ ?_ ?_ txs
  · exact ⟨trivial, customSound_after [], fun severity cfg hget => by simp [customConfigs] at hget⟩
  · intro txs tx _ hconsistent hregisters
    refine ⟨trivial, ?_⟩
    rw [after_concat]
    rcases invoke_effect (current_after txs) tx with ⟨r, s', evs, he, hi⟩ | ⟨x, hi⟩
    · rw [hi]
      exact he.customsConsistent hconsistent hregisters
    · rw [hi]
      exact hconsistent
  · intro txs tx _ _ hregisters
    rw [after_concat]
    exact not_customsConsistent_of_registers hregisters

/-- The admin registers a custom severity whose penalty exceeds its reward. -/
def unprofitableRun : List ContractTx :=
  launch ++ [⟨.setCustomSeverity ⟨1⟩ (symbolShort "urgent") 10 10000 1, ⟨[⟨1⟩], 2, 2⟩⟩]

/-- The custom severities of that run are not consistent. -/
theorem unprofitableRun_not_consistent : ¬ CustomsConsistent (after unprofitableRun) := by
  intro h
  have hlt := h.consistent (symbolShort "urgent") ⟨10, 10000, 1⟩ (by decide)
  revert hlt
  simp [Consistent]

end ApexChainx
