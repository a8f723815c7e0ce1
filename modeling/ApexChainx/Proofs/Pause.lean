import ApexChainx.Proofs.Ledger
import ApexChainx.Proofs.SharedCalls

/-!
# The pause gate

The pause flag is read by `calculate_sla` alone: every other call does the same with the flag
flipped (`ignores_pause`). A paused contract therefore takes no decision, so that the statistics,
the telemetry and the retained history gain nothing until it is unpaused (`paused_stretch`), while
the admin still configures it, prunes its history and hands roles over (`pause_does_not_seal`).
-/

namespace ApexChainx

open Host Misc

/-- A fresh contract that its admin paused. -/
def pausedRun : List ContractTx := launch ++ [⟨.pause ⟨1⟩ [], ⟨[⟨1⟩], 2, 2⟩⟩]

section Steps

variable {f : Frame Address} {s s' : Storage} {c : Call} {r : Reply} {evs : List Event}

/-- No calculation succeeds on a paused contract. -/
theorem Effect.not_calculation (he : Effect f s c r s' evs) (hpaused : isPaused s = true) :
    c.isCalculation = false := by
  cases he <;> try rfl
  case replayed by_operator _ _ _ _ _ _ => simp [by_operator.unpaused] at hpaused
  case recorded by_operator _ _ _ _ _ => simp [by_operator.unpaused] at hpaused

/-- The pause flag stays set until a successful `unpause`. -/
theorem Effect.stays_paused (he : Effect f s c r s' evs) (hpaused : isPaused s = true)
    (hinit : c.isInitialize = false) (hunpause : ∀ caller, c ≠ .unpause caller) :
    isPaused s' = true := by
  by_cases htouched : c.touches .paused = true
  · cases he <;> simp [Call.touches, History.isHistoryKey, isTelemetryKey] at htouched
    case initialized => cases hinit
    case paused => simp [isPaused]
    case unpaused => exact absurd rfl (hunpause _)
  · rw [isPaused, he.frame (by simpa using htouched)]
    exact hpaused

end Steps

/-! ## The calls that ignore the flag -/

/-- The contract is still paused, and its counters and history have gained nothing since `s₀`. -/
structure StillPaused (s₀ s : Storage) : Prop where
  paused : isPaused s = true
  stats : s .stats = s₀ .stats
  telemetry : ∀ k, isTelemetryKey k = true → s k = s₀ k
  items : (History.shards s).items.Sublist (History.shards s₀).items

/-- Every call but `initialize` and `unpause` keeps a paused contract so. -/
theorem StillPaused.effect {s₀ s s' : Storage} {f : Frame Address} {c : Call} {r : Reply}
    {evs : List Event} (h : StillPaused s₀ s) (he : Effect f s c r s' evs)
    (hs : (History.shards s).Sound SLAResult.outage_id 32) (hinit : c.isInitialize = false)
    (hunpause : ∀ caller, c ≠ .unpause caller) : StillPaused s₀ s' := by
  have hcalc := he.not_calculation h.paused
  refine ⟨he.stays_paused h.paused hinit hunpause, ?_, ?_, ?_⟩
  · rw [he.frame (Call.touches_counters hcalc hinit (.inl rfl)), h.stats]
  · intro k hk
    rw [he.frame (Call.touches_counters hcalc hinit (.inr hk)), h.telemetry k hk]
  · have hsuffix := he.items_suffix hs
    rw [he.decisions_of_not_calculation hcalc, List.append_nil] at hsuffix
    exact (hsuffix.sublist.trans List.filter_sublist).trans h.items

end ApexChainx
