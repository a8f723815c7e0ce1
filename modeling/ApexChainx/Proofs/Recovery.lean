import ApexChainx.Proofs.Calculation
import ApexChainx.Proofs.Health
import ApexChainx.Proofs.Pause

/-!
# Bringing a contract back into service

However it was paused, frozen or handed over, a contract whose admin stands is three calls away
from deciding again: `unfreeze_config`, `unpause` and `set_operator`. They touch neither the
configuration nor the history, and then every submission of the operator is decided, or refused as
a duplicate or at the recalculation limit (`Recovers`). Without the admin a paused contract is out
of service for good, so a contract can serve again exactly when its admin stands or it is not paused
(`serviceable_iff`).
-/

namespace ApexChainx

open Host Misc

/-- The contract has an operator, and an admin unless the admin renounced. -/
structure Manned (s : Storage) : Prop where
  operator : ∃ operator, s .operator = some operator
  admin : s .adminRenounced = none → ∃ admin, s .admin = some admin

/-- No one can unpause the contract. -/
structure OutOfService (s : Storage) : Prop where
  renounced : (s .adminRenounced).isSome = true
  paused : isPaused s = true

section Steps

variable {f : Frame Address} {s s' : Storage} {c : Call} {r : Reply} {evs : List Event}

theorem manned_initialized (s : Storage) (admin operator : Address) :
    Manned (initializedStorage s admin operator) :=
  ⟨⟨operator, by simp [initializedStorage]⟩, fun _ => ⟨admin, by simp [initializedStorage]⟩⟩

/-- Roles are handed over, never vacated, other than by renouncing. -/
theorem Effect.manned (he : Effect f s c r s' evs) (h : Manned s) : Manned s' where
  operator := by
    by_cases htouched : c.touches .operator = true
    · cases he <;> simp [Call.touches, History.isHistoryKey, isTelemetryKey] at htouched
      case initialized => exact (manned_initialized ..).operator
      case operatorSet caller new_operator _ _ => exact ⟨new_operator, by simp⟩
      case operatorAccepted caller _ => exact ⟨caller, by simp [clearedPending]⟩
    · rw [he.frame (by simpa using htouched)]
      exact h.operator
  admin := by
    intro hstanding
    by_cases htouched : c.touches .admin = true
    · cases he <;> simp [Call.touches, History.isHistoryKey, isTelemetryKey] at htouched
      case initialized admin _ _ _ _ => exact ⟨admin, by simp [initializedStorage]⟩
      case adminAccepted caller _ => exact ⟨caller, by simp [clearedPending]⟩
      case renounced by_admin _ =>
        have hmark : droppedPending (clearedPending ((s.set .adminRenounced true).remove .admin)
            .admin) .adminRenounced = some true := by
          unfold droppedPending
          split <;> simp [clearedPending]
        rw [hmark] at hstanding
        cases hstanding
    · have hrenounced : c.touches .adminRenounced = false := by
        cases c <;> simp_all [Call.touches, History.isHistoryKey, isTelemetryKey]
      rw [he.frame hrenounced] at hstanding
      rw [he.frame (by simpa using htouched)]
      exact h.admin hstanding

/-- Nothing takes back the mark of a renunciation. -/
theorem Effect.stays_renounced (he : Effect f s c r s' evs)
    (hmark : (s .adminRenounced).isSome = true) : (s' .adminRenounced).isSome = true := by
  by_cases htouched : c.touches .adminRenounced = true
  · cases he <;> simp [Call.touches, History.isHistoryKey, isTelemetryKey] at htouched
    case renounced by_admin _ =>
      rw [by_admin.standing] at hmark
      cases hmark
  · rw [he.frame (by simpa using htouched)]
    exact hmark

/-- Only `initialize` takes a contract out of that state. -/
theorem Effect.outOfService (he : Effect f s c r s' evs) (h : OutOfService s)
    (hinit : c.isInitialize = false) : OutOfService s' where
  renounced := he.stays_renounced h.renounced
  paused := by
    refine he.stays_paused h.paused hinit ?_
    rintro caller rfl
    cases he with
    | unpaused by_admin =>
      have hmark := h.renounced
      rw [by_admin.standing] at hmark
      cases hmark

end Steps

theorem manned_after {txs : List ContractTx} (hinit : 0 < initializations txs) :
    Manned (after txs) := by
  have hfresh : after txs = Store.empty ∨ Manned (after txs) := by
    refine after_induction (P := fun _ s => s = Store.empty ∨ Manned s) (.inl rfl) ?_
      (fun _ _ _ h _ => h) txs
    intro txs tx r s' evs hP he _
    rcases hP with hempty | hs
    · rw [hempty] at he
      obtain ⟨admin, operator, -, rfl, -⟩ := effect_of_empty he
      exact .inr (manned_initialized ..)
    · exact .inr (he.manned hs)
  rcases hfresh with hempty | hs
  · have hversion := (configSound_after hinit).version
    rw [hempty] at hversion
    cases hversion
  · exact hs

/-! ## A fresh outage -/

/-- A symbol of four decimal digits. -/
def numbered (n : Nat) : Symbol :=
  ⟨[n / 1000, n / 100, n / 10, n].map fun d => Nat.digitChar (d % 10), by
    have hdigit : ∀ d : Fin 10, isSymbolChar (Nat.digitChar d) = true := by decide
    simp [fun d : Nat => hdigit ⟨d % 10, Nat.mod_lt d (by decide)⟩]⟩

theorem numbered_inj {n m : Nat} (hn : n < 10000) (hm : m < 10000)
    (h : numbered n = numbered m) : n = m := by
  have hdigit : ∀ d e : Fin 10, Nat.digitChar d = Nat.digitChar e → d = e := by decide
  have hsame : ∀ a b : Nat, Nat.digitChar (a % 10) = Nat.digitChar (b % 10) → a % 10 = b % 10 :=
    fun a b hab => congrArg Fin.val (hdigit ⟨a % 10, Nat.mod_lt a (by decide)⟩
      ⟨b % 10, Nat.mod_lt b (by decide)⟩ hab)
  have hchars := congrArg Symbol.chars h
  simp only [numbered, List.map_cons, List.map_nil, List.cons.injEq, and_true] at hchars
  obtain ⟨h₃, h₂, h₁, h₀⟩ := hchars
  have := hsame _ _ h₃
  have := hsame _ _ h₂
  have := hsame _ _ h₁
  have := hsame _ _ h₀
  omega

/-- Among so few entries some outage has none. -/
theorem exists_fresh {entries : List SLAResult} (h : entries.length ≤ 1000) :
    ∃ outage_id, ∀ entry ∈ entries, entry.outage_id ≠ outage_id := by
  by_contra hnone
  simp only [not_exists, not_forall, not_not] at hnone
  have hnodup : ((List.range 1001).map numbered).Nodup := by
    refine List.Nodup.map_on ?_ List.nodup_range
    intro n hn m hm hsame
    have hn' := List.mem_range.mp hn
    have hm' := List.mem_range.mp hm
    exact numbered_inj (by omega) (by omega) hsame
  have hsub : (List.range 1001).map numbered ⊆ entries.map SLAResult.outage_id := by
    intro outage_id _
    obtain ⟨entry, hentry, hoid⟩ := hnone outage_id
    exact List.mem_map.mpr ⟨entry, hentry, hoid⟩
  have hlen := (List.subperm_of_subset hnodup hsub).length_le
  simp only [List.length_map, List.length_range] at hlen
  omega

/-! ## The calls of the recovery -/

section Calls

variable {f : Frame Address} {s : Storage} {admin operator : Address}

theorem unfreezeConfig_returns (by_admin : ByAdmin f s admin) :
    ∃ env', (unfreezeConfig admin).Returns f ⟨s, [], []⟩ () env' := by
  obtain ⟨version, signed, standing, hadmin⟩ := by_admin
  cases hfrozen : isConfigFrozen s <;>
    simp [unfreezeConfig, unfreezeFlag, version, signed, standing, hadmin, hfrozen]

theorem unpause_returns (by_admin : ByAdmin f s admin) :
    ∃ env', (unpause admin).Returns f ⟨s, [], []⟩ () env' := by
  obtain ⟨version, signed, standing, hadmin⟩ := by_admin
  simp [unpause, version, signed, standing, hadmin]

theorem setOperator_returns (by_admin : ByAdmin f s admin) (thawed : isConfigFrozen s = false)
    (operator : Address) : ∃ env', (setOperator admin operator).Returns f ⟨s, [], []⟩ () env' := by
  obtain ⟨version, signed, standing, hadmin⟩ := by_admin
  simp [setOperator, version, signed, standing, hadmin, thawed]

end Calls

/-- The calls that bring a contract back into service. -/
def recoveryCalls (admin operator : Address) (f₁ f₂ f₃ : Frame Address) : List ContractTx :=
  [⟨.unfreezeConfig admin, f₁⟩, ⟨.unpause admin, f₂⟩, ⟨.setOperator admin operator, f₃⟩]

/-- The keys they may write. -/
def recoveryKeys : List StorageKey :=
  [.freeze, .paused, .pauseInfo, .operator, .pending .operator, .pendingTs .operator]

/-- What a submission that passes its guards is answered. -/
def answer (s : Storage) (outage_id : Symbol) (mttr : Nat) (cfg : SLAConfig)
    (result : SLAResult) : Except (Fault SLAError) Reply :=
  match History.latestForOutage s outage_id with
  | none => .ok (.decision result)
  | some prev =>
    if prev.config_version_hash = severityConfigHash cfg then
      if prev.mttr_minutes ≠ mttr ∨ prev.threshold_minutes ≠ cfg.threshold_minutes then
        .error (.err .DuplicateOutageInput)
      else .ok (.decision prev)
    else if (History.entryIndicesForOutage s outage_id).length ≥ maxRecalcsPerOutage then
      .error (.err .OutageRecalcLimit)
    else .ok (.decision result)

/-- A submission that is not given a decision of its own leaves the storage as it is. -/
theorem Submits.unmoved {f : Frame Address} {s : Storage} {caller : Address}
    {outage_id severity : Symbol} {mttr : Nat} {cfg : SLAConfig} {result : SLAResult}
    (h : Submits f s caller outage_id severity mttr cfg result)
    (hno : ¬ Admits s outage_id (severityConfigHash cfg)) :
    invoke exec (submission f caller outage_id severity mttr) s =
      ⟨s, [], answer s outage_id mttr cfg result⟩ := by
  unfold answer
  cases hlatest : History.latestForOutage s outage_id with
  | none => exact absurd (fun prev hprev => by simp [hlatest] at hprev) hno
  | some prev =>
    dsimp only
    by_cases generation : prev.config_version_hash = severityConfigHash cfg
    · rw [if_pos generation]
      by_cases differs : Differs prev mttr cfg
      · rw [reply_of_fails (h.duplicates hlatest generation differs)]
        congr 1
        exact (if_pos differs).symm
      · rw [reply_of_returns (h.replays hlatest generation differs)]
        congr 1
        exact (if_neg differs).symm
    · rw [if_neg generation]
      by_cases full : maxRecalcsPerOutage ≤ (History.entryIndicesForOutage s outage_id).length
      · rw [reply_of_fails (h.limited hlatest generation full), if_pos full]
      · refine absurd (fun prev' hprev => ?_) hno
        obtain rfl : prev = prev' := by simpa [hlatest] using hprev
        exact ⟨generation, Nat.lt_of_not_le full⟩

theorem Submits.answered {f : Frame Address} {s : Storage} {caller : Address}
    {outage_id severity : Symbol} {mttr : Nat} {cfg : SLAConfig} {result : SLAResult}
    (h : Submits f s caller outage_id severity mttr cfg result) :
    (invoke exec (submission f caller outage_id severity mttr) s).reply =
      answer s outage_id mttr cfg result := by
  by_cases admits : Admits s outage_id (severityConfigHash cfg)
  · obtain ⟨s', hi, -⟩ := h.recorded admits
    rw [hi, answer]
    cases hlatest : History.latestForOutage s outage_id with
    | none => rfl
    | some prev =>
      obtain ⟨generation, room⟩ := admits prev hlatest
      dsimp only
      rw [if_neg generation, if_neg (Nat.not_le.mpr room)]
  · rw [h.unmoved admits]

/-- The calls go through, leave everything but the switches and the operator as it is, and then
every submission of the operator is decided, or refused for what is stored of its outage. -/
structure Recovers (s : Storage) (calls : List ContractTx) (operator : Address) : Prop where
  succeed : ∀ st ∈ trace exec s calls, succeeds st = true
  kept : ∀ k, k ∉ recoveryKeys → final exec s calls k = s k
  answers : ∀ (f : Frame Address) (outage_id severity : Symbol) (mttr : Nat), operator ∈ f.auths →
    severity ∈ canonicalSeverities → mttr ≤ maxMttr → ∃ cfg result,
      loadConfig severity s = .ok cfg ∧
      computeResult outage_id mttr cfg (severityConfigHash cfg) f.timestamp = .ok result ∧
      (invoke exec (submission f operator outage_id severity mttr) (final exec s calls)).reply =
        answer s outage_id mttr cfg result

/-- A submission by the operator of an unpaused contract passes its guards. -/
theorem Healthy.submits {s : Storage} (hs : Healthy s) (hopen : isPaused s = false)
    {operator : Address} (hoperator : s .operator = some operator) {f : Frame Address}
    (signed : operator ∈ f.auths) {severity : Symbol} (canonical : severity ∈ canonicalSeverities)
    (outage_id : Symbol) {mttr : Nat} (bound : mttr ≤ maxMttr) :
    ∃ cfg result, Submits f s operator outage_id severity mttr cfg result := by
  obtain ⟨cfg, config, -⟩ := hs.config.answers.lookup severity canonical
  obtain ⟨result, computed⟩ : ∃ result,
      computeResult outage_id mttr cfg (severityConfigHash cfg) f.timestamp = .ok result :=
    computeResult_ok (inBounds_of_loadConfig (.inr hs.config) hs.custom config) bound
  exact ⟨cfg, result, ⟨hs.version, hopen, signed, hoperator⟩, bound, config, computed⟩

/-- The answer depends on the history only. -/
theorem answer_congr {s s' : Storage} (h : History.shards s' = History.shards s)
    (outage_id : Symbol) (mttr : Nat) (cfg : SLAConfig) (result : SLAResult) :
    answer s' outage_id mttr cfg result = answer s outage_id mttr cfg result := by
  have hlatest : History.latestForOutage s' outage_id = History.latestForOutage s outage_id :=
    congrArg (·.latest outage_id) h
  have hindex : History.entryIndicesForOutage s' outage_id =
      History.entryIndicesForOutage s outage_id := congrArg (·.index outage_id) h
  unfold answer
  rw [hlatest, hindex]

/-- A standing admin brings a healthy contract back into service. -/
theorem Healthy.recovers {s : Storage} (hs : Healthy s) {admin : Address}
    (hadmin : s .admin = some admin) (hstanding : s .adminRenounced = none) (operator : Address)
    {f₁ f₂ f₃ : Frame Address} (h₁ : admin ∈ f₁.auths) (h₂ : admin ∈ f₂.auths)
    (h₃ : admin ∈ f₃.auths) : Recovers s (recoveryCalls admin operator f₁ f₂ f₃) operator := by
  obtain ⟨r₁, s₁, evs₁, he₁, hi₁⟩ := effect_of_program (c := .unfreezeConfig admin) rfl
    hs.regular.current (unfreezeConfig_returns ⟨hs.version, h₁, hstanding, hadmin⟩)
  have hs₁ : Healthy s₁ := he₁.healthy hs
  have hadmin₁ : s₁ .admin = some admin := (he₁.frame rfl).trans hadmin
  have hstanding₁ : s₁ .adminRenounced = none := (he₁.frame rfl).trans hstanding
  have hthawed₁ : isConfigFrozen s₁ = false := by
    cases he₁ with
    | thawed => simp [isConfigFrozen]
    | stillThawed _ thawed => exact thawed
  obtain ⟨r₂, s₂, evs₂, he₂, hi₂⟩ := effect_of_program (c := .unpause admin) rfl
    hs₁.regular.current (unpause_returns ⟨hs₁.version, h₂, hstanding₁, hadmin₁⟩)
  have hs₂ : Healthy s₂ := he₂.healthy hs₁
  have hthawed₂ : isConfigFrozen s₂ = false := by
    rw [isConfigFrozen, he₂.frame rfl]
    exact hthawed₁
  have hopen₂ : isPaused s₂ = false := by
    cases he₂
    simp [isPaused]
  obtain ⟨r₃, s₃, evs₃, he₃, hi₃⟩ := effect_of_program (c := .setOperator admin operator) rfl
    hs₂.regular.current (setOperator_returns ⟨hs₂.version, h₃, (he₂.frame rfl).trans hstanding₁,
      (he₂.frame rfl).trans hadmin₁⟩ hthawed₂ operator)
  have hs₃ : Healthy s₃ := he₃.healthy hs₂
  have hopen₃ : isPaused s₃ = false := by
    rw [isPaused, he₃.frame rfl]
    exact hopen₂
  have hoperator₃ : s₃ .operator = some operator := by
    cases he₃
    simp
  have hfinal : final exec s (recoveryCalls admin operator f₁ f₂ f₃) = s₃ := by
    simp only [recoveryCalls, final_cons, final_nil, hi₁, hi₂, hi₃]
  have hlog : History.shards s₃ = History.shards s :=
    (he₃.shards_eq rfl).trans ((he₂.shards_eq rfl).trans (he₁.shards_eq rfl))
  have hconfig : s₃ .config = s .config :=
    (he₃.frame rfl).trans ((he₂.frame rfl).trans (he₁.frame rfl))
  refine ⟨?_, ?_, ?_⟩
  · simp only [recoveryCalls, trace, hi₁, hi₂, List.mem_cons, List.not_mem_nil, or_false]
    rintro st (rfl | rfl | rfl)
    · exact succeeds_of_ok hi₁
    · exact succeeds_of_ok hi₂
    · exact succeeds_of_ok hi₃
  · intro k hk
    simp only [recoveryKeys, List.mem_cons, List.not_mem_nil, or_false, not_or] at hk
    rw [hfinal, he₃.frame (by simp [Call.touches, hk]), he₂.frame (by simp [Call.touches, hk]),
      he₁.frame (by simp [Call.touches, hk])]
  · intro f outage_id severity mttr signed canonical bound
    obtain ⟨cfg, result, hsubmits⟩ :=
      hs₃.submits hopen₃ hoperator₃ signed canonical outage_id bound
    have hload : loadConfig severity s₃ = loadConfig severity s := by
      simp only [loadConfig, isCanonicalSeverity_iff.mpr canonical, if_true, hconfig]
    refine ⟨cfg, result, hload ▸ hsubmits.config, hsubmits.computed, ?_⟩
    rw [hfinal, hsubmits.answered, answer_congr hlog]

/-! ## Which contracts can serve again -/

/-- Some calls, none of them `initialize`, after which a calculation succeeds. -/
def Serviceable (txs : List ContractTx) : Prop :=
  ∃ later tx, (∀ t ∈ later, t.call.isInitialize = false) ∧ tx.call.isCalculation = true ∧
    succeeds ⟨after (txs ++ later), tx⟩ = true

theorem outOfService_along {txs : List ContractTx} (h : OutOfService (after txs))
    {later : List ContractTx} (hlater : ∀ t ∈ later, t.call.isInitialize = false) :
    OutOfService (after (txs ++ later)) := by
  refine stretch_induction txs (P := fun later s =>
    (∀ t ∈ later, t.call.isInitialize = false) → OutOfService s) (fun _ => h) ?_ ?_ later hlater
  · intro later tx r s' evs ih he _ hlater
    exact he.outOfService (ih fun t ht => hlater t (List.mem_append_left _ ht))
      (hlater tx (by simp))
  · exact fun later tx x ih _ hlater => ih fun t ht => hlater t (List.mem_append_left _ ht)

/-- An unpaused contract decides an outage of which it retains nothing. -/
theorem Healthy.decides {s : Storage} (hs : Healthy s)
    (hexact : (History.shards s).Exact SLAResult.outage_id) (hopen : isPaused s = false)
    (hoperator : ∃ operator, s .operator = some operator) :
    ∃ tx : ContractTx, tx.call.isCalculation = true ∧ succeeds ⟨s, tx⟩ = true := by
  obtain ⟨operator, hoperator⟩ := hoperator
  obtain ⟨outage_id, hfresh⟩ := exists_fresh hs.length_le
  have hlatest : History.latestForOutage s outage_id = none := by
    have hitems : History.latestForOutage s outage_id =
        ((History.shards s).itemsOf SLAResult.outage_id outage_id).getLast? :=
      hexact.latest_eq outage_id
    rw [hs.readAllEntries_eq] at hfresh
    rw [hitems, List.getLast?_eq_none_iff]
    exact List.filter_eq_nil_iff.mpr fun entry hentry => by simpa using hfresh entry hentry
  obtain ⟨cfg, result, hsubmits⟩ : ∃ cfg result,
      Submits ⟨[operator], 0, 0⟩ s operator outage_id critical 0 cfg result :=
    hs.submits hopen hoperator (by simp) (by decide) outage_id (Nat.zero_le _)
  obtain ⟨s', hi, -⟩ := hsubmits.recorded fun prev hprev => by simp [hlatest] at hprev
  exact ⟨submission ⟨[operator], 0, 0⟩ operator outage_id critical 0, rfl, succeeds_of_ok hi⟩

/-- A contract can serve again exactly when its admin stands or it is not paused. -/
theorem serviceable_iff {txs : List ContractTx} (hone : initializations txs = 1)
    (hfew : (recorded txs).length < 2 ^ 32) :
    Serviceable txs ↔ after txs .adminRenounced = none ∨ isPaused (after txs) = false := by
  have hinit : 0 < initializations txs := by omega
  have hs : Healthy (after txs) := healthy_of_stored (configSound_after hinit).version
  have hmanned : Manned (after txs) := manned_after hinit
  have hexact := (historyExact_after hone hfew).1.exact
  constructor
  · rintro ⟨later, tx, hlater, hcalculation, hsucceeds⟩
    by_contra hclosed
    simp only [not_or, Bool.not_eq_false] at hclosed
    have hdead : OutOfService (after (txs ++ later)) :=
      outOfService_along ⟨Option.isSome_iff_ne_none.mpr hclosed.1, hclosed.2⟩ hlater
    obtain ⟨r, s', evs, he, -⟩ := effect_of_succeeds (current_after _) hsucceeds
    rw [he.not_calculation hdead.paused] at hcalculation
    cases hcalculation
  · rintro (hstanding | hopen)
    · obtain ⟨admin, hadmin⟩ := hmanned.admin hstanding
      obtain ⟨r, s', evs, he, hi⟩ := effect_of_program (f := ⟨[admin], 0, 0⟩)
        (c := .unpause admin) rfl hs.regular.current
        (unpause_returns ⟨hs.version, by simp, hstanding, hadmin⟩)
      have hopen : isPaused s' = false := by
        cases he
        simp [isPaused]
      obtain ⟨tx, hcalculation, hsucceeds⟩ := (he.healthy hs).decides
        (he.shards_eq rfl ▸ hexact) hopen (he.manned hmanned).operator
      refine ⟨[⟨.unpause admin, ⟨[admin], 0, 0⟩⟩], tx, by simp [Call.isInitialize], hcalculation,
        ?_⟩
      rw [after_concat, hi]
      exact hsucceeds
    · obtain ⟨tx, hcalculation, hsucceeds⟩ := hs.decides hexact hopen hmanned.operator
      exact ⟨[], tx, by simp, hcalculation, by simpa using hsucceeds⟩

/-- Bringing a contract back into service, over every run in which `initialize` succeeds once: the
standing admin does it in three calls, whatever happened before, and no sequence of calls does it
once the contract is paused and the admin renounced. -/
theorem service_recoverable (txs : List ContractTx) (hone : initializations txs = 1)
    (hfew : (recorded txs).length < 2 ^ 32) :
    (Serviceable txs ↔ after txs .adminRenounced = none ∨ isPaused (after txs) = false) ∧
    ∀ admin operator f₁ f₂ f₃, after txs .admin = some admin →
      after txs .adminRenounced = none → admin ∈ f₁.auths → admin ∈ f₂.auths →
      admin ∈ f₃.auths → Recovers (after txs) (recoveryCalls admin operator f₁ f₂ f₃) operator := by
  refine ⟨serviceable_iff hone hfew, fun admin operator f₁ f₂ f₃ hadmin hstanding h₁ h₂ h₃ => ?_⟩
  have hinit : 0 < initializations txs := by omega
  have hs : Healthy (after txs) := healthy_of_stored (configSound_after hinit).version
  exact hs.recovers hadmin hstanding operator h₁ h₂ h₃

/-- A paused contract can serve again. -/
theorem service_recoverable_pausedRun : Serviceable pausedRun :=
  (service_recoverable pausedRun (by decide) (by decide)).1.mpr (.inl (by decide))

end ApexChainx
