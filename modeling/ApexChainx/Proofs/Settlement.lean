import ApexChainx.Proofs.Specification

/-!
# Settlement is monotone

How the amount of a decision moves: a longer repair never settles for more, and a severity that
ranks higher is violated earlier and charged at least as much.
-/

namespace ApexChainx

open Host Misc

/-! ## In the repair time -/

section RepairTime

variable {cfg : SLAConfig} {mttr₁ mttr₂ : Nat}

theorem rewardTier_antitone {ratio₁ ratio₂ : Nat} (h : ratio₁ ≤ ratio₂) :
    (rewardTier ratio₂).1 ≤ (rewardTier ratio₁).1 := by
  unfold rewardTier
  grind

theorem rewardDue_antitone (hcfg : InBounds cfg) (h : mttr₁ ≤ mttr₂) :
    rewardDue mttr₂ cfg ≤ rewardDue mttr₁ cfg := by
  have hratio : (checkedDiv (mttr₁ * 100) cfg.threshold_minutes).getD 0 ≤
      (checkedDiv (mttr₂ * 100) cfg.threshold_minutes).getD 0 := by
    have hthreshold : cfg.threshold_minutes ≠ 0 := Nat.one_le_iff_ne_zero.mp hcfg.threshold.1
    simp only [checkedDiv, if_neg hthreshold, Option.getD_some]
    exact Nat.div_le_div_right (Nat.mul_le_mul_right 100 h)
  refine Int.ediv_le_ediv (by decide) ?_
  exact Int.mul_le_mul_of_nonneg_left (Int.ofNat_le.mpr (rewardTier_antitone hratio))
    (by have := hcfg.reward.1; omega)

theorem penaltyDue_mono (hcfg : InBounds cfg) (h : mttr₁ ≤ mttr₂) :
    penaltyDue mttr₁ cfg ≤ penaltyDue mttr₂ cfg :=
  Int.mul_le_mul_of_nonneg_right (Int.ofNat_le.mpr (Nat.sub_le_sub_right h _))
    (by have := hcfg.penalty.1; omega)

theorem penaltyDue_strictMono (hcfg : InBounds cfg) (h : mttr₁ < mttr₂)
    (hviolated : cfg.threshold_minutes ≤ mttr₁) : penaltyDue mttr₁ cfg < penaltyDue mttr₂ cfg :=
  Int.mul_lt_mul_of_pos_right (Int.ofNat_lt.mpr (by omega))
    (by have := hcfg.penalty.1; omega)

/-- A longer repair never settles for more. -/
theorem settlement_antitone (hcfg : InBounds cfg) (hmttr : mttr₂ ≤ unsignedMax 32)
    (h : mttr₁ ≤ mttr₂) : settlement mttr₂ cfg ≤ settlement mttr₁ cfg := by
  unfold settlement
  by_cases h₁ : mttr₁ > cfg.threshold_minutes
  · have h₂ : mttr₂ > cfg.threshold_minutes := by omega
    rw [if_pos h₁, if_pos h₂]
    exact Int.neg_le_neg (penaltyDue_mono hcfg h)
  · rw [if_neg h₁]
    by_cases h₂ : mttr₂ > cfg.threshold_minutes
    · have hpenalty := (penaltyDue_bounds hcfg hmttr h₂).1
      have hreward := rewardDue_pos mttr₁ hcfg
      rw [if_pos h₂]
      omega
    · rw [if_neg h₂]
      exact rewardDue_antitone hcfg h

/-- Past the threshold it settles for strictly less. -/
theorem settlement_strictAnti (hcfg : InBounds cfg) (hmttr : mttr₂ ≤ unsignedMax 32)
    (h : mttr₁ < mttr₂) (hviolated : cfg.threshold_minutes < mttr₂) :
    settlement mttr₂ cfg < settlement mttr₁ cfg := by
  unfold settlement
  rw [if_pos hviolated]
  by_cases h₁ : mttr₁ > cfg.threshold_minutes
  · rw [if_pos h₁]
    exact Int.neg_lt_neg (penaltyDue_strictMono hcfg h h₁.le)
  · have hpenalty := (penaltyDue_bounds hcfg hmttr hviolated).1
    have hreward := rewardDue_pos mttr₁ hcfg
    rw [if_neg h₁]
    omega

end RepairTime

/-! ## In the severity -/

/-- `upper` ranks above `lower`: it is violated no later and penalized no less. -/
def RanksAbove (upper lower : SLAConfig) : Prop :=
  upper.threshold_minutes ≤ lower.threshold_minutes ∧
    lower.penalty_per_minute ≤ upper.penalty_per_minute

theorem Canonical.ranks {configs : OrdMap Symbol SLAConfig} {c h m l : SLAConfig}
    (hc : Canonical configs c h m l) : RanksAbove c h ∧ RanksAbove h m :=
  ⟨⟨hc.thresholds.1, hc.penalties.1⟩, ⟨hc.thresholds.2.1, hc.penalties.2⟩⟩

theorem Canonical.inBounds {configs : OrdMap Symbol SLAConfig} {c h m l cfg : SLAConfig}
    {severity : Symbol} (hc : Canonical configs c h m l) (hget : configs.get severity = some cfg) :
    InBounds cfg := (inBounds_of_validateConfig (hc.valid severity cfg hget)).2

/-- Every canonical map a run stores is valid and ordered. -/
theorem canonical_of_stored {txs : List ContractTx} {configs : OrdMap Symbol SLAConfig}
    (stored : after txs .config = some configs) : ∃ c h m l, Canonical configs c h m l := by
  have hpos : 0 < initializations txs := by
    rcases Nat.eq_zero_or_pos (initializations txs) with hzero | hpos
    · rw [after_eq_empty hzero] at stored
      cases stored
    · exact hpos
  obtain ⟨configs', c, h, m, l, stored', hc, -⟩ := (configSound_after hpos).canonical
  rw [stored] at stored'
  obtain rfl := Option.some.inj stored'
  exact ⟨c, h, m, l, hc⟩

theorem RanksAbove.penaltyDue_le {upper lower : SLAConfig} (h : RanksAbove upper lower)
    (hupper : InBounds upper) (mttr : Nat) : penaltyDue mttr lower ≤ penaltyDue mttr upper := by
  have hover : ((mttr - lower.threshold_minutes : Nat) : Int) ≤
      ((mttr - upper.threshold_minutes : Nat) : Int) :=
    Int.ofNat_le.mpr (Nat.sub_le_sub_left h.1 _)
  calc penaltyDue mttr lower
      ≤ ((mttr - lower.threshold_minutes : Nat) : Int) * upper.penalty_per_minute :=
        Int.mul_le_mul_of_nonneg_left h.2 (Int.natCast_nonneg _)
    _ ≤ penaltyDue mttr upper :=
        Int.mul_le_mul_of_nonneg_right hover (by have := hupper.penalty.1; omega)

/-- The decisions on one outage under two tiers, of which the first ranks above the second: a
violation of the lower tier is one of the upper tier, and the upper tier charges at least as
much. -/
theorem RanksAbove.decisions {upper lower : SLAConfig} (h : RanksAbove upper lower)
    (hupper : InBounds upper) {mttr : Nat} {rU rL : SLAResult}
    (hU : rU.amount = settlement mttr upper ∧
      (rU.status = .viol ↔ mttr > upper.threshold_minutes))
    (hL : rL.amount = settlement mttr lower ∧
      (rL.status = .viol ↔ mttr > lower.threshold_minutes)) (hviolated : rL.status = .viol) :
    rU.status = .viol ∧ -rL.amount ≤ -rU.amount := by
  have hlower := hL.2.mp hviolated
  have hover : mttr > upper.threshold_minutes := Nat.lt_of_le_of_lt h.1 hlower
  refine ⟨hU.2.mpr hover, ?_⟩
  rw [hU.1, hL.1, settlement, settlement, if_pos hover, if_pos hlower, neg_neg, neg_neg]
  exact h.penaltyDue_le hupper mttr

/-- Settlement is monotone: within the bounds a longer repair settles for no more, and for
strictly less past the threshold; and in every configuration map of a run the tiers are violated
and charged in the order of the severities. -/
theorem settlement_monotone :
    (∀ (cfg : SLAConfig) (id₁ id₂ : Symbol) (mttr₁ mttr₂ hash₁ hash₂ now₁ now₂ : Nat),
      InBounds cfg → mttr₁ ≤ mttr₂ → mttr₂ ≤ maxMttr → ∃ r₁ r₂,
        computeResult id₁ mttr₁ cfg hash₁ now₁ = .ok r₁ ∧
          computeResult id₂ mttr₂ cfg hash₂ now₂ = .ok r₂ ∧ r₂.amount ≤ r₁.amount ∧
          (mttr₁ < mttr₂ → cfg.threshold_minutes < mttr₂ → r₂.amount < r₁.amount)) ∧
    ∀ (txs : List ContractTx) (configs : OrdMap Symbol SLAConfig),
      after txs .config = some configs → ∃ c h m, configs.get critical = some c ∧
        configs.get high = some h ∧ configs.get medium = some m ∧
        ∀ (id : Symbol) (mttr hash now : Nat), mttr ≤ unsignedMax 32 → ∃ rC rH rM,
          computeResult id mttr c hash now = .ok rC ∧
            computeResult id mttr h hash now = .ok rH ∧
            computeResult id mttr m hash now = .ok rM ∧
            (rM.status = .viol → rH.status = .viol ∧ rC.status = .viol) ∧
            (rH.status = .viol → rC.status = .viol ∧ -rH.amount ≤ -rC.amount) ∧
            (rM.status = .viol → -rM.amount ≤ -rH.amount) := by
  constructor
  · intro cfg id₁ id₂ mttr₁ mttr₂ hash₁ hash₂ now₁ now₂ hcfg hle hmax
    have hmttr : mttr₂ ≤ unsignedMax 32 := hmax.trans (by decide)
    obtain ⟨r₁, hr₁, hamount₁, -⟩ := computeResult_settlement id₁ hash₁ now₁ hcfg (hle.trans hmttr)
    obtain ⟨r₂, hr₂, hamount₂, -⟩ := computeResult_settlement id₂ hash₂ now₂ hcfg hmttr
    refine ⟨r₁, r₂, hr₁, hr₂, ?_, ?_⟩
    · rw [hamount₁, hamount₂]
      exact settlement_antitone hcfg hmttr hle
    · intro hlt hviolated
      rw [hamount₁, hamount₂]
      exact settlement_strictAnti hcfg hmttr hlt hviolated
  · intro txs configs stored
    obtain ⟨c, h, m, l, hc⟩ := canonical_of_stored stored
    obtain ⟨hch, hhm⟩ := hc.ranks
    refine ⟨c, h, m, hc.critical, hc.high, hc.medium, ?_⟩
    intro id mttr hash now hmttr
    obtain ⟨rC, hrC, hC⟩ := computeResult_settlement id hash now (hc.inBounds hc.critical) hmttr
    obtain ⟨rH, hrH, hH⟩ := computeResult_settlement id hash now (hc.inBounds hc.high) hmttr
    obtain ⟨rM, hrM, hM⟩ := computeResult_settlement id hash now (hc.inBounds hc.medium) hmttr
    have hhigh := hch.decisions (hc.inBounds hc.critical) hC hH
    have hmedium := hhm.decisions (hc.inBounds hc.high) hH hM
    refine ⟨rC, rH, rM, hrC, hrH, hrM, ?_, hhigh, ?_⟩
    · intro hviolated
      have hupper := (hmedium hviolated).1
      exact ⟨hupper, (hhigh hupper).1⟩
    · exact fun hviolated => (hmedium hviolated).2

/-- A critical outage repaired after twenty minutes rather than ten, and one of forty minutes under
the default tiers. -/
theorem settlement_monotone_launch :
    (∃ r₁ r₂, computeResult (symbolShort "OUT1") 10 ⟨15, 100, 750⟩ 0 0 = .ok r₁ ∧
      computeResult (symbolShort "OUT1") 20 ⟨15, 100, 750⟩ 0 0 = .ok r₂ ∧ r₂.amount < r₁.amount) ∧
    ∃ rC rH, computeResult (symbolShort "OUT1") 40 ⟨15, 100, 750⟩ 0 0 = .ok rC ∧
      computeResult (symbolShort "OUT1") 40 ⟨30, 50, 750⟩ 0 0 = .ok rH ∧
      -rH.amount ≤ -rC.amount := by
  constructor
  · obtain ⟨r₁, r₂, h₁, h₂, -, hstrict⟩ := settlement_monotone.1 ⟨15, 100, 750⟩
      (symbolShort "OUT1") (symbolShort "OUT1") 10 20 0 0 0 0
      ⟨by decide, by decide, by decide⟩ (by decide) (by decide)
    exact ⟨r₁, r₂, h₁, h₂, hstrict (by decide) (by decide)⟩
  · obtain ⟨c, h, m, hc, hh, -, hall⟩ := settlement_monotone.2 launch defaultConfigs (by rfl)
    obtain rfl := Option.some.inj (canonical_default.critical.symm.trans hc)
    obtain rfl := Option.some.inj (canonical_default.high.symm.trans hh)
    obtain ⟨rC, rH, rM, hrC, hrH, -, -, hhigh, -⟩ := hall (symbolShort "OUT1") 40 0 0 (by decide)
    refine ⟨rC, rH, hrC, hrH, (hhigh ?_).2⟩
    have hviolated : computeResult (symbolShort "OUT1") 40 ⟨30, 50, 750⟩ 0 0 =
        .ok ⟨symbolShort "OUT1", .viol, 40, 30, -500, .pen, .poor, 0, 0⟩ := by rfl
    cases hrH.symm.trans hviolated
    rfl

end ApexChainx
