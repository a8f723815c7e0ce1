import ApexChainx.Contract.Exposure
import ApexChainx.Proofs.ConfigHash
import ApexChainx.Proofs.Ledger

/-!
# The exposure view bounds the decisions

`get_economic_exposure` and `calculate_sla` compute from the configuration independently. The view
walks the canonical severities, adds up what it finds and never overflows (`exposure_walks`). A
decision is either computed from the configuration its severity holds or replayed from the
history; a replayed one carries the hash of that configuration, and the hash separates
configurations, so it settles the same (`settles_after`). A registered custom severity is no part
of the view.
-/

namespace ApexChainx

open Host Misc

/-! ## What the view walks -/

/-- The totals are the sums of the breakdown. -/
structure Summed (exposure : EconomicExposure) : Prop where
  rewards : exposure.total_max_reward = (exposure.breakdown.map (·.max_reward)).sum
  penalties : exposure.total_penalty_per_minute =
    (exposure.breakdown.map (·.penalty_per_minute)).sum

/-- The entry shows the configuration its severity holds. -/
def Shows (s : Storage) (entry : SeverityExposure) : Prop :=
  ∃ cfg, loadConfig entry.severity s = .ok cfg ∧ entry.max_reward = cfg.reward_base * 2 ∧
    entry.penalty_per_minute = cfg.penalty_per_minute

/-- What the loop of the view has added up once it has walked the severities. -/
structure Walked (s : Storage) (severities : List Symbol) (exposure : EconomicExposure) : Prop where
  summed : Summed exposure
  severities : exposure.breakdown.map (·.severity) = severities
  shows : ∀ entry ∈ exposure.breakdown, Shows s entry

section Walk

variable {s : Storage} (hbounds : ∀ severity cfg, loadConfig severity s = .ok cfg → InBounds cfg)

/-- A sum of entries between zero and a bound. -/
theorem sum_exposure_bounds {high : Int} {g : SeverityExposure → Int}
    {entries : List SeverityExposure} (h : ∀ entry ∈ entries, 0 ≤ g entry ∧ g entry ≤ high) :
    0 ≤ (entries.map g).sum ∧ (entries.map g).sum ≤ high * entries.length := by
  induction entries with
  | nil => simp
  | cons entry entries ih =>
    have hfirst := h entry (List.mem_cons_self ..)
    have hrest := ih fun other ho => h other (List.mem_cons_of_mem _ ho)
    simp only [List.map_cons, List.sum_cons, List.length_cons, Nat.cast_add, Nat.cast_one,
      Int.mul_add, Int.mul_one]
    omega

include hbounds in
theorem Shows.bounds {entry : SeverityExposure} (h : Shows s entry) :
    (0 ≤ entry.max_reward ∧ entry.max_reward ≤ 200000) ∧
      (0 ≤ entry.penalty_per_minute ∧ entry.penalty_per_minute ≤ 10000) := by
  obtain ⟨cfg, hload, hreward, hpenalty⟩ := h
  obtain ⟨-, hp, hr⟩ := hbounds _ cfg hload
  omega

include hbounds in
/-- One more severity: nothing overflows while the breakdown is short. -/
theorem Walked.next {severities : List Symbol} {acc : EconomicExposure}
    (h : Walked s severities acc) (hshort : severities.length < 2 ^ 32) {severity : Symbol}
    {cfg : SLAConfig} (hload : loadConfig severity s = .ok cfg) :
    ∃ exposure, exposeSeverity s acc severity = .ok exposure ∧
      Walked s (severities ++ [severity]) exposure := by
  obtain ⟨-, hp, hr⟩ := hbounds severity cfg hload
  have hlength : (acc.breakdown.length : Int) < 2 ^ 32 := by
    rw [← h.severities, List.length_map] at hshort
    omega
  have hrewards :=
    sum_exposure_bounds fun entry hentry => ((h.shows entry hentry).bounds hbounds).1
  have hpenalties :=
    sum_exposure_bounds fun entry hentry => ((h.shows entry hentry).bounds hbounds).2
  rw [← h.summed.rewards] at hrewards
  rw [← h.summed.penalties] at hpenalties
  have hfits : ∀ x : Int, 0 ≤ x → x ≤ 2 ^ 64 → checked 128 x = some x := fun x hlow hhigh =>
    checked_of_fits (by simp only [signedMin, signedMax]; omega)
  have hdouble : cfg.reward_base * 200 / 100 = cfg.reward_base * 2 := by omega
  refine ⟨⟨acc.total_max_reward + cfg.reward_base * 2,
    acc.total_penalty_per_minute + cfg.penalty_per_minute,
    acc.breakdown ++ [⟨severity, cfg.reward_base * 2, cfg.penalty_per_minute⟩]⟩, ?_, ?_, ?_, ?_⟩
  · simp only [exposeSeverity, hload, ok_bind, hfits (cfg.reward_base * 200) (by omega) (by omega),
      Option.map_some, okOr_some, hdouble,
      hfits (acc.total_max_reward + cfg.reward_base * 2) (by omega) (by omega),
      hfits (acc.total_penalty_per_minute + cfg.penalty_per_minute) (by omega) (by omega)]
    rfl
  · exact ⟨by simp [h.summed.rewards], by simp [h.summed.penalties]⟩
  · simp [h.severities]
  · intro entry hentry
    rcases List.mem_append.mp hentry with hold | hnew
    · exact h.shows entry hold
    · rw [List.mem_singleton.mp hnew]
      exact ⟨cfg, hload, rfl, rfl⟩

include hbounds in
theorem Walked.foldlM {severities rest : List Symbol} {acc : EconomicExposure}
    (h : Walked s severities acc) (hshort : severities.length + rest.length < 2 ^ 32)
    (hloads : ∀ severity ∈ rest, ∃ cfg, loadConfig severity s = .ok cfg) :
    ∃ exposure, rest.foldlM (exposeSeverity s) acc = .ok exposure ∧
      Walked s (severities ++ rest) exposure := by
  induction rest generalizing severities acc with
  | nil => exact ⟨acc, rfl, by simpa using h⟩
  | cons severity rest ih =>
    simp only [List.length_cons] at hshort
    obtain ⟨cfg, hload⟩ := hloads severity (List.mem_cons_self ..)
    obtain ⟨mid, hmid, hwalked⟩ := h.next hbounds (by omega) hload
    obtain ⟨exposure, hrest, hall⟩ := ih hwalked (by simp; omega)
      fun other ho => hloads other (List.mem_cons_of_mem _ ho)
    refine ⟨exposure, ?_, by simpa using hall⟩
    rw [List.foldlM_cons, hmid]
    exact hrest

end Walk

/-- Once the contract is configured the view answers, and has walked the canonical severities. -/
theorem exposure_walks {txs : List ContractTx} (hinit : 0 < initializations txs) :
    ∃ exposure, getEconomicExposure (after txs) = .ok exposure ∧
      Walked (after txs) canonicalSeverities exposure := by
  have hs := configSound_after hinit
  have hempty : Walked (after txs) [] ⟨0, 0, []⟩ := ⟨⟨rfl, rfl⟩, rfl, by simp⟩
  have hloads : ∀ severity ∈ canonicalSeverities, ∃ cfg,
      loadConfig severity (after txs) = .ok cfg := by
    intro severity canonical
    obtain ⟨cfg, hload, -⟩ := hs.answers.lookup severity canonical
    exact ⟨cfg, hload⟩
  obtain ⟨exposure, hfold, hwalked⟩ := hempty.foldlM (fun _ _ => inBounds_after) (by decide) hloads
  refine ⟨exposure, ?_, by simpa using hwalked⟩
  have hversion : checkVersion (after txs) = .ok () := checkVersion_eq_ok.mpr hs.version
  simp only [getEconomicExposure, hversion, ok_bind, hfold]

/-! ## What the contract decides -/

section Slots

variable {f : Frame Address} {s s' : Storage} {c : Call} {r : Reply} {evs : List Event}

/-- What holds of every stored entry, and of the decision a call records, goes on holding of
every stored entry. -/
theorem Effect.slots_all {P : SLAResult → Prop} (he : Effect f s c r s' evs)
    (hs : ∀ entry, (History.shards s).Holds entry → P entry)
    (hnew : ∀ decision ∈ decisions evs, P decision) :
    ∀ entry, (History.shards s').Holds entry → P entry := by
  by_cases hon : c.onHistory = false
  · rw [he.shards_eq hon]
    exact hs
  · cases he <;> simp [Call.onHistory] at hon
    case initialized admin operator _ _ _ =>
      -- the slots keep what they held
      rintro entry ⟨i, hi⟩
      exact hs entry ⟨i, by simpa [History.readEntry, initializedStorage] using hi⟩
    case replayed => exact hs
    case keptAll => exact hs
    case recorded result _ _ _ _ _ change =>
      rw [change.log]
      intro entry hentry
      rcases ShardedLog.holds_record hentry with rfl | hold
      · exact hnew entry (by simp)
      · exact hs entry hold
    case pruned change _ =>
      rw [change.log]
      exact fun entry hentry => hs entry (ShardedLog.holds_dropTo hentry)
    case prunedByAge change _ =>
      rw [change.log]
      intro entry hentry
      rcases ShardedLog.holds_rebuild hentry with hrecent | hold
      · obtain ⟨i, -, hi⟩ := List.mem_filterMap.mp (List.mem_of_mem_filter hrecent)
        exact hs entry ⟨i, hi⟩
      · exact hs entry hold
    case retentionSet change _ =>
      rw [change.log]
      exact fun entry hentry => hs entry (ShardedLog.holds_dropTo hentry)

end Slots

/-- Every stored entry, retained or not, is what its own inputs compute. -/
theorem genuine_after (txs : List ContractTx) :
    ∀ entry, (History.shards (after txs)).Holds entry → Genuine entry := by
  refine after_induction (P := fun _ s => ∀ entry, (History.shards s).Holds entry → Genuine entry)
    ?_ ?_ (fun _ _ _ ih _ => ih) txs
  · rintro entry ⟨i, hi⟩
    cases hi
  · intro txs tx r s' evs ih he _
    refine he.slots_all ih ?_
    rcases he.records_or_quiet with ⟨severity, cfg, result, hr⟩ | ⟨hquiet, -⟩
    · rw [hr.events, decisions_recordedEvents]
      intro decision hdecision
      rw [List.mem_singleton.mp hdecision]
      exact hr.genuine (inBounds_after hr.config)
    · simp [decisions_of_quiet hquiet]

/-- The decision is the one the configuration settles for the repair time. -/
structure Settles (mttr : Nat) (cfg : SLAConfig) (result : SLAResult) : Prop where
  amount : result.amount = settlement mttr cfg
  status : result.status = .viol ↔ mttr > cfg.threshold_minutes
  threshold : result.threshold_minutes = cfg.threshold_minutes

theorem settles_of_computed {outage_id : Symbol} {mttr hash now : Nat} {cfg : SLAConfig}
    {result : SLAResult} (hcfg : InBounds cfg) (hmttr : mttr ≤ maxMttr)
    (h : computeResult outage_id mttr cfg hash now = .ok result) : Settles mttr cfg result := by
  obtain ⟨result', hresult, hamount, hstatus⟩ := computeResult_settlement outage_id hash now hcfg
    (hmttr.trans (by decide))
  rw [hresult] at h
  cases h
  exact ⟨hamount, hstatus, (computeResult_inputs hresult).2.2.1⟩

/-- A decision the contract returns, fresh or replayed, is the one the configuration of its
severity settles. -/
theorem settles_after {txs : List ContractTx} {f : Frame Address} {caller : Address}
    {outage_id severity : Symbol} {mttr : Nat} {result : SLAResult}
    (h : (invoke exec (submission f caller outage_id severity mttr) (after txs)).reply =
      .ok (.decision result)) :
    ∃ cfg, loadConfig severity (after txs) = .ok cfg ∧ Settles mttr cfg result := by
  obtain ⟨s', evs, he, -⟩ := effect_of_reply (current_after txs) h
  cases he with
  | recorded _ bound config computed =>
    exact ⟨_, config, settles_of_computed (inBounds_after config) bound computed⟩
  | replayed _ bound config _ latest generation inputs =>
    obtain ⟨cfg', hcfg', hhash, hcomputed⟩ :=
      genuine_after txs result (ShardedLog.holds_of_latest latest)
    obtain rfl := severityConfigHash_injective hcfg' (inBounds_after config)
      (hhash.trans generation)
    rw [inputs.1] at hcomputed
    exact ⟨_, config, settles_of_computed hcfg' bound hcomputed⟩

/-! ## The bound -/

/-- No reward exceeds twice the base, and a repair in no time earns just that. -/
theorem rewardDue_le_double {cfg : SLAConfig} (hcfg : InBounds cfg) (mttr : Nat) :
    rewardDue mttr cfg ≤ cfg.reward_base * 2 ∧ rewardDue 0 cfg = cfg.reward_base * 2 := by
  obtain ⟨ht, -, hr⟩ := hcfg
  constructor
  · have htier := rewardTier_bounds ((checkedDiv (mttr * 100) cfg.threshold_minutes).getD 0)
    have hproduct : cfg.reward_base *
        ((rewardTier ((checkedDiv (mttr * 100) cfg.threshold_minutes).getD 0)).1 : Int) ≤
          cfg.reward_base * 200 :=
      Int.mul_le_mul_of_nonneg_left (by omega) (by omega)
    unfold rewardDue
    omega
  · have hratio : (checkedDiv (0 * 100) cfg.threshold_minutes).getD 0 = 0 := by
      simp [checkedDiv, Nat.one_le_iff_ne_zero.mp ht.1]
    have htier : (rewardTier 0).1 = 200 := rfl
    rw [rewardDue, hratio, htier]
    omega

/-- The entry bounds the decision for the repair time: a reward by its maximum, which a repair in
no time reaches, and a penalty by its rate. -/
structure BoundsDecision (entry : SeverityExposure) (mttr : Nat) (result : SLAResult) : Prop where
  met : result.status = .met → result.amount ≤ entry.max_reward
  immediate : mttr = 0 → result.status = .met ∧ result.amount = entry.max_reward
  violated : result.status = .viol →
    result.amount = -(((mttr : Int) - result.threshold_minutes) * entry.penalty_per_minute)

theorem Settles.bounded {mttr : Nat} {cfg : SLAConfig} {result : SLAResult}
    (h : Settles mttr cfg result) (hcfg : InBounds cfg) {entry : SeverityExposure}
    (hreward : entry.max_reward = cfg.reward_base * 2)
    (hpenalty : entry.penalty_per_minute = cfg.penalty_per_minute) :
    BoundsDecision entry mttr result := by
  have hthreshold := hcfg.threshold.1
  have hamount := h.amount
  have hmet : result.status = .met → ¬ mttr > cfg.threshold_minutes := by
    intro hmet hover
    rw [h.status.mpr hover] at hmet
    cases hmet
  unfold settlement at hamount
  refine ⟨?_, ?_, ?_⟩
  · intro hstatus
    rw [if_neg (hmet hstatus)] at hamount
    rw [hamount, hreward]
    exact (rewardDue_le_double hcfg mttr).1
  · rintro rfl
    have hinTime : ¬ 0 > cfg.threshold_minutes := by omega
    rw [if_neg hinTime, (rewardDue_le_double hcfg 0).2, ← hreward] at hamount
    refine ⟨?_, hamount⟩
    cases hstatus : result.status with
    | met => rfl
    | viol => exact absurd (h.status.mp hstatus) hinTime
  · intro hstatus
    have hover := h.status.mp hstatus
    rw [if_pos hover] at hamount
    rw [hamount, h.threshold, hpenalty, penaltyDue, Nat.cast_sub hover.le]

/-- The exposure view answers, its totals are the sums of its breakdown, and every covered
severity has an entry that bounds every decision the contract returns for it. -/
def ExposureBounds (s : Storage) (covered : Symbol → Prop) : Prop :=
  ∃ exposure, getEconomicExposure s = .ok exposure ∧ Summed exposure ∧
    ∀ severity, covered severity → ∃ entry ∈ exposure.breakdown, entry.severity = severity ∧
      ∀ f caller outage_id mttr result,
        (invoke exec (submission f caller outage_id severity mttr) s).reply =
          .ok (.decision result) → BoundsDecision entry mttr result

/-- The exposure view bounds every decision for a canonical severity, in every state reached once
`initialize` has succeeded. -/
theorem exposure_bounds_decisions (txs : List ContractTx) (hinit : 0 < initializations txs) :
    ExposureBounds (after txs) (· ∈ canonicalSeverities) := by
  obtain ⟨exposure, hview, hwalked⟩ := exposure_walks hinit
  refine ⟨exposure, hview, hwalked.summed, ?_⟩
  intro severity canonical
  rw [← hwalked.severities] at canonical
  obtain ⟨entry, hentry, rfl⟩ := List.mem_map.mp canonical
  refine ⟨entry, hentry, rfl, ?_⟩
  intro f caller outage_id mttr result hreply
  obtain ⟨shown, hshown, hreward, hpenalty⟩ := hwalked.shows entry hentry
  obtain ⟨cfg, hload, hsettles⟩ := settles_after hreply
  rw [hshown] at hload
  cases hload
  exact hsettles.bounded (inBounds_after hshown) hreward hpenalty

theorem exposure_bounds_decisions_busyRun :
    ExposureBounds (after busyRun) (· ∈ canonicalSeverities) :=
  exposure_bounds_decisions busyRun (by decide)

/-! ## Custom severities -/

/-- The admin registers a custom severity. -/
def exposedCustomRun : List ContractTx :=
  launch ++ [⟨.setCustomSeverity ⟨1⟩ customTelemetrySeverity 240 5 500, ⟨[⟨1⟩], 2, 2⟩⟩]

/-- A registered custom severity has no entry in the view. -/
theorem exposure_omits_customs :
    ¬ ∀ txs, 0 < initializations txs → ExposureBounds (after txs)
      (fun severity => ∃ cfg, loadConfig severity (after txs) = .ok cfg) := by
  intro h
  have hinit : 0 < initializations exposedCustomRun := by decide
  obtain ⟨exposure, hview, -, hcovered⟩ := h exposedCustomRun hinit
  obtain ⟨exposure', hview', hwalked⟩ := exposure_walks hinit
  rw [hview] at hview'
  cases hview'
  obtain ⟨entry, hentry, hseverity, -⟩ := hcovered customTelemetrySeverity ⟨⟨240, 5, 500⟩, by rfl⟩
  have hmem : customTelemetrySeverity ∈ canonicalSeverities := by
    rw [← hwalked.severities, ← hseverity]
    exact List.mem_map_of_mem hentry
  revert hmem
  decide

end ApexChainx
