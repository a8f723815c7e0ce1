import Mathlib.Algebra.Order.BigOperators.Group.List
import ApexChainx.Proofs.ConfigInvariant

/-!
# The cumulative statistics

The statistics are a fold of the recorded decisions (`tally`), whatever happens to the history.
No clamp fires: the configuration invariant bounds the amount of one decision, so fewer than
`2^64` decisions stay far inside the counters.
-/

namespace ApexChainx

open Host Misc

/-- The statistics of a list of decisions. -/
def tally (results : List SLAResult) : SLAStats where
  total_calculations := results.length
  total_violations := results.countP (·.status = .viol)
  total_rewards := ((results.filter (·.status = .met)).map (·.amount)).sum
  total_penalties := -((results.filter (·.status = .viol)).map (·.amount)).sum

/-- The sign and the size of the amount of a decision. -/
structure Settled (result : SLAResult) : Prop where
  met : result.status = .met → 0 ≤ result.amount ∧ result.amount ≤ 200000
  viol : result.status = .viol → -5256000000 ≤ result.amount ∧ result.amount ≤ 0

theorem computePenalty_settled {outage_id : Symbol} {mttr hash now : Nat} {cfg : SLAConfig}
    {result : SLAResult} (hcfg : InBounds cfg) (hmttr : mttr ≤ maxMttr)
    (h : computePenalty outage_id mttr cfg hash now = .ok result) : Settled result := by
  simp only [computePenalty, bind_eq_ok, okOr_eq_ok, refuseIf_eq_ok, pure_eq_ok] at h
  obtain ⟨penalty, hpenalty, amount, hamount, -, negative, rfl⟩ := h
  obtain rfl := checked_eq_some hpenalty
  obtain rfl := checked_eq_some hamount
  refine ⟨by simp, fun _ => ⟨?_, by simpa using Int.le_of_lt (Int.not_le.mp negative)⟩⟩
  have hover : ((mttr - cfg.threshold_minutes : Nat) : Int) ≤ 525600 := by
    simp only [maxMttr] at hmttr
    omega
  have hproduct := Int.mul_le_mul hover hcfg.penalty.2 (by have := hcfg.penalty.1; omega)
    (by decide)
  simp only at hproduct ⊢
  omega

theorem computeReward_settled {outage_id : Symbol} {mttr hash now : Nat} {cfg : SLAConfig}
    {result : SLAResult} (hcfg : InBounds cfg)
    (h : computeReward outage_id mttr cfg hash now = .ok result) : Settled result := by
  simp only [computeReward, bind_eq_ok, okOr_eq_ok, refuseIf_eq_ok, pure_eq_ok] at h
  obtain ⟨scaled, hscaled, -, positive, rfl⟩ := h
  obtain rfl := checked_eq_some hscaled
  refine ⟨fun _ => ⟨Int.le_of_lt (Int.not_le.mp positive), ?_⟩, by simp⟩
  generalize (checkedDiv (mttr * 100) cfg.threshold_minutes).getD 0 = ratio
  have htier : (rewardTier ratio).1 ≤ 200 := by
    unfold rewardTier
    split
    · decide
    · split <;> decide
  have hproduct := Int.mul_le_mul hcfg.reward.2 (Int.ofNat_le.mpr htier) (Int.natCast_nonneg _)
    (by decide)
  simp only at hproduct ⊢
  omega

theorem computeResult_settled {outage_id : Symbol} {mttr hash now : Nat} {cfg : SLAConfig}
    {result : SLAResult} (hcfg : InBounds cfg) (hmttr : mttr ≤ maxMttr)
    (h : computeResult outage_id mttr cfg hash now = .ok result) : Settled result := by
  unfold computeResult at h
  split at h
  · exact computePenalty_settled hcfg hmttr h
  · exact computeReward_settled hcfg h

/-! ## One more decision -/

/-- The totals of bounded amounts stay within the bound times their number. -/
theorem sum_amounts_bounds (low high : Int) {results : List SLAResult}
    (h : ∀ result ∈ results, low ≤ result.amount ∧ result.amount ≤ high) :
    results.length * low ≤ (results.map (·.amount)).sum ∧
      (results.map (·.amount)).sum ≤ results.length * high := by
  induction results with
  | nil => simp
  | cons result rest ih =>
    obtain ⟨hlow, hhigh⟩ := h result (List.mem_cons_self ..)
    obtain ⟨ihlow, ihhigh⟩ := ih fun other ho => h other (List.mem_cons_of_mem _ ho)
    simp only [List.map_cons, List.sum_cons, List.length_cons]
    push_cast
    rw [Int.add_mul, Int.add_mul]
    omega

theorem tally_rewards_bounds {results : List SLAResult} (h : ∀ result ∈ results, Settled result) :
    0 ≤ (tally results).total_rewards ∧
      (tally results).total_rewards ≤ results.length * 200000 := by
  have hmet : ∀ result ∈ results.filter (·.status = .met),
      0 ≤ result.amount ∧ result.amount ≤ 200000 := by
    intro result hr
    obtain ⟨hmem, hmet⟩ := List.mem_filter.mp hr
    exact (h result hmem).met (by simpa using hmet)
  have hbounds := sum_amounts_bounds 0 200000 hmet
  have hlen := List.length_filter_le (fun result : SLAResult => result.status = .met) results
  simp only [tally]
  omega

theorem tally_penalties_bounds {results : List SLAResult}
    (h : ∀ result ∈ results, Settled result) :
    0 ≤ (tally results).total_penalties ∧
      (tally results).total_penalties ≤ results.length * 5256000000 := by
  have hviol : ∀ result ∈ results.filter (·.status = .viol),
      -5256000000 ≤ result.amount ∧ result.amount ≤ 0 := by
    intro result hr
    obtain ⟨hmem, hviol⟩ := List.mem_filter.mp hr
    exact (h result hmem).viol (by simpa using hviol)
  have hbounds := sum_amounts_bounds (-5256000000) 0 hviol
  have hlen := List.length_filter_le (fun result : SLAResult => result.status = .viol) results
  simp only [tally]
  omega

theorem bumpCounter_of_room (counter : Symbol) (value : Nat) (h : value + 1 < 2 ^ 64) :
    bumpCounter counter value = (value + 1, []) := by
  have hfits : value + 1 ≤ unsignedMax 64 := by
    simp only [unsignedMax]
    omega
  simp [bumpCounter, checkedAdd, hfits]

theorem bumpTotal_of_room (counter : Symbol) (value amount : Int)
    (h : 0 ≤ value + amount ∧ value + amount < 2 ^ 127) :
    bumpTotal counter value amount = (value + amount, []) := by
  have hfits : signedMin 128 ≤ value + amount ∧ value + amount ≤ signedMax 128 := by
    simp only [signedMin, signedMax]
    omega
  simp only [bumpTotal, checked_of_fits hfits]

/-- Adding a decision to the statistics of fewer than `2^64` decisions counts it, and no clamp
fires. -/
theorem statsAfter_tally {results : List SLAResult} {result : SLAResult}
    (h : ∀ other ∈ results, Settled other) (hr : Settled result)
    (hroom : results.length + 1 < 2 ^ 64) :
    statsAfter (tally results) result = (tally (results ++ [result]), []) := by
  have hcalculations := bumpCounter_of_room totcalc
    (tally results).total_calculations hroom
  cases hstatus : result.status with
  | viol =>
    have hcount : (tally results).total_violations ≤ results.length := List.countP_le_length
    have hpenalties := tally_penalties_bounds h
    have hamount := hr.viol hstatus
    have hviolations := bumpCounter_of_room totviol
      (tally results).total_violations (by omega)
    have htotal := bumpTotal_of_room totpen
      (tally results).total_penalties (-result.amount) (by omega)
    simp only [statsAfter, hstatus, if_true, hcalculations, hviolations, htotal]
    simp [tally, hstatus, Int.add_comm]
  | met =>
    have hrewards := tally_rewards_bounds h
    have hamount := hr.met hstatus
    have htotal := bumpTotal_of_room totrew
      (tally results).total_rewards result.amount (by omega)
    simp only [statsAfter, hstatus, reduceCtorEq, if_false, hcalculations, htotal]
    simp [tally, hstatus]

/-! ## Whole runs -/

/-- A clamp of the statistics fired: `stats_sat`. -/
def Event.isClamp : Event → Bool
  | .statsSat _ _ _ => true
  | _ => false

/-- The statistics count the decisions, each settled within its bounds, and no clamp fired. -/
structure StatsExact (evs : List Event) (s : Storage) : Prop where
  config : ConfigSound s
  custom : CustomSound s
  stats : s .stats = some (tally (decisions evs))
  settled : ∀ result ∈ decisions evs, Settled result
  unclamped : ∀ ev ∈ evs, ev.isClamp = false

theorem statsExact_initialized (admin operator : Address) :
    StatsExact [] (initializedStorage Store.empty admin operator) where
  config := configSound_initialized _ _ _
  custom := fun severity cfg h => by simp [customConfigs, initializedStorage] at h
  stats := by simp [initializedStorage, tally, SLAStats.zero]
  settled := by simp
  unclamped := by simp

theorem Effect.statsExact {f : Frame Address} {s s' : Storage} {c : Call} {r : Reply}
    {evs new : List Event} (he : Effect f s c r s' new) (hs : StatsExact evs s)
    (hc : c.isInitialize = false) (hroom : (decisions (evs ++ new)).length < 2 ^ 64) :
    StatsExact (evs ++ new) s' := by
  have hconfig := he.configSound hs.config
  have hcustom := he.customSound hs.custom
  rcases he.records_or_quiet with ⟨severity, cfg, result, hr⟩ | ⟨hquiet, hstats⟩
  · obtain rfl := hr.events
    have hsettled : Settled result := computeResult_settled
      (inBounds_of_loadConfig (.inr hs.config) hs.custom hr.config) hr.bound hr.computed
    have hdecisions : decisions (evs ++ recordedEvents f s severity result) =
        decisions evs ++ [result] := by simp
    rw [hdecisions, List.length_append, List.length_singleton] at hroom
    have hafter : statsAfter (statsOf s) result =
        (tally (decisions evs ++ [result]), []) := by
      have hold : statsOf s = tally (decisions evs) := by simp [statsOf, hs.stats]
      rw [hold]
      exact statsAfter_tally hs.settled hsettled hroom
    refine ⟨hconfig, hcustom, ?_, ?_, ?_⟩
    · rw [hr.change.stats, hafter, hdecisions]
    · rw [hdecisions]
      intro other ho
      rcases List.mem_append.mp ho with ho | ho
      · exact hs.settled other ho
      · exact List.mem_singleton.mp ho ▸ hsettled
    · intro ev hev
      rcases List.mem_append.mp hev with hev | hev
      · exact hs.unclamped ev hev
      · simp only [recordedEvents, hafter, List.nil_append, List.mem_cons, List.not_mem_nil,
          or_false] at hev
        rcases hev with rfl | rfl <;> rfl
  · have hdecisions : decisions (evs ++ new) = decisions evs := by
      rw [decisions_append, decisions_of_quiet hquiet, List.append_nil]
    refine ⟨hconfig, hcustom, ?_, ?_, ?_⟩
    · rw [hstats hc .stats (.inl rfl), hs.stats, hdecisions]
    · rw [hdecisions]
      exact hs.settled
    · intro ev hev
      rcases List.mem_append.mp hev with hev | hev
      · exact hs.unclamped ev hev
      · have := hquiet ev hev
        cases ev <;> simp_all [Event.onDecision, Event.isClamp]

theorem statsExact_after {txs : List ContractTx} (hone : initializations txs = 1)
    (hfew : (recorded txs).length < 2 ^ 64) :
    StatsExact (committed exec Store.empty txs) (after txs) := by
  refine committed_induction
    (P := fun evs s => (decisions evs).length < 2 ^ 64 → StatsExact evs s)
    (fun admin operator _ => statsExact_initialized admin operator) ?_ txs hone hfew
  intro evs s f c r s' new ih he hc hlt
  refine he.statsExact (ih ?_) hc hlt
  rw [decisions_append, List.length_append] at hlt
  omega

/-- The statistics are the fold of the decisions a run recorded, and no clamp fired, over every
run in which `initialize` succeeds once and fewer than `2^64` decisions are recorded. -/
theorem stats_fold (txs : List ContractTx) (hone : initializations txs = 1)
    (hfew : (recorded txs).length < 2 ^ 64) :
    after txs .stats = some (tally (recorded txs)) ∧
      ∀ ev ∈ committed exec Store.empty txs, ev.isClamp = false :=
  have hexact := statsExact_after hone hfew
  ⟨hexact.stats, hexact.unclamped⟩

theorem stats_fold_oneDecision :
    after oneDecision .stats = some (tally (recorded oneDecision)) :=
  (stats_fold oneDecision (by decide) (by decide)).1

end ApexChainx
