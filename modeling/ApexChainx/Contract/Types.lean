import Mathlib.Data.Char
import Mathlib.Data.List.Lex
import Mathlib.Order.Lattice

/-!
# Contract data types

The values the calculator stores, returns and publishes, as declared in `lib.rs`. Unsigned
machine words are natural numbers and `i128` amounts are integers; the places where their width
matters apply the operations of `ApexChainx.Misc.Machine`. The short symbols a result carries
(`"met"`, `"pen"`, `"top"`, …) are enumerations.
-/

namespace ApexChainx

/-- A character a host symbol may contain: `[a-zA-Z0-9_]`. -/
def isSymbolChar (c : Char) : Bool := c.isAlphanum || c == '_'

/-- A host symbol: at most 32 characters of `[a-zA-Z0-9_]`. -/
structure Symbol where
  chars : List Char
  wellFormed : chars.length ≤ 32 ∧ chars.all isSymbolChar = true

namespace Symbol

@[ext] theorem ext {a b : Symbol} (h : a.chars = b.chars) : a = b := by
  cases a; cases b; cases h; rfl

/-- Symbols are compared character by character, which is the key order of a host map. -/
instance : LinearOrder Symbol := LinearOrder.lift' Symbol.chars (fun _ _ => ext)

instance : LawfulBEq Symbol := inferInstance

instance : Repr Symbol := ⟨fun s _ => repr (String.ofList s.chars)⟩

end Symbol

/-- `symbol_short!`. -/
def symbolShort (s : String)
    (h : s.toList.length ≤ 32 ∧ s.toList.all isSymbolChar = true := by decide) : Symbol :=
  ⟨s.toList, h⟩

/-- An account or contract address. -/
structure Address where
  id : Nat
  deriving DecidableEq, Repr

/-- `SLAConfig`. -/
structure SLAConfig where
  threshold_minutes : Nat
  penalty_per_minute : Int
  reward_base : Int
  deriving DecidableEq, Repr

/-- `SLAResult.status`: `"met"` or `"viol"`. -/
inductive Status where
  | met
  | viol
  deriving DecidableEq, Repr

/-- `SLAResult.payment_type`: `"rew"` or `"pen"`. -/
inductive PaymentType where
  | rew
  | pen
  deriving DecidableEq, Repr

/-- `SLAResult.rating`: `"top"`, `"excel"`, `"good"` or `"poor"`. -/
inductive Rating where
  | top
  | excel
  | good
  | poor
  deriving DecidableEq, Repr

/-- `SLAResult`. -/
structure SLAResult where
  outage_id : Symbol
  status : Status
  mttr_minutes : Nat
  threshold_minutes : Nat
  amount : Int
  payment_type : PaymentType
  rating : Rating
  config_version_hash : Nat
  recorded_at : Nat
  deriving DecidableEq, Repr

/-- `SLAStats`: penalties are summed as positive amounts. -/
structure SLAStats where
  total_calculations : Nat
  total_violations : Nat
  total_rewards : Int
  total_penalties : Int
  deriving DecidableEq, Repr

/-- The zeroed statistics of a fresh contract. -/
def SLAStats.zero : SLAStats := ⟨0, 0, 0, 0⟩

/-- `PauseInfo`; the reason is the bytes of a host string. -/
structure PauseInfo where
  reason : List UInt8
  paused_at : Nat
  paused_by : Address
  deriving DecidableEq, Repr

/-- `SLAConfigEntry`. -/
structure SLAConfigEntry where
  severity : Symbol
  config : SLAConfig
  deriving DecidableEq, Repr

/-- `SLAConfigSnapshot`. -/
structure SLAConfigSnapshot where
  version : Symbol
  entries : List SLAConfigEntry
  deriving DecidableEq, Repr

/-- `SLAError`. -/
inductive SLAError where
  | AlreadyInitialized
  | NotInitialized
  | Unauthorized
  | ConfigNotFound
  | VersionMismatch
  | ContractPaused
  | NoPendingTransfer
  | InvalidThreshold
  | InvalidPenalty
  | InvalidReward
  | InvalidSeverity
  | RetentionLimitOutOfRange
  | DuplicateOutageInput
  | InvalidPenaltyAmount
  | InvalidRewardAmount
  | ConfigFrozen
  | InvalidInput
  | SeverityNotInSet
  | OutageRecalcLimit
  | ProposalExpired
  | AdminRenounced
  | ExposureOverflow
  deriving DecidableEq, Repr

/-- The events the contract publishes, with the context topic and the payload of each. The
first topic (the event name) is the constructor, the second is always `"v1"`. -/
inductive Event where
  /-- `sla_calc` -/
  | slaCalc (severity : Symbol) (decision : SLAResult)
  /-- `set_int`: the decision, and the trailing correlation id -/
  | settleIntent (severity : Symbol) (decision : SLAResult) (correlation_id : BitVec 64)
  /-- `dup_input`: the stored decision, then the attempted MTTR and threshold -/
  | dupInput (severity : Symbol) (existing : SLAResult) (attempted : Option (Nat × Nat))
  /-- `cfg_upd` -/
  | configUpd (severity : Symbol) (threshold : Nat) (penalty reward : Int)
  /-- `sev_add` -/
  | sevAdd (severity : Symbol) (threshold : Nat) (penalty reward : Int)
  /-- `sev_upd` -/
  | sevUpd (severity : Symbol) (threshold : Nat) (penalty reward : Int)
  /-- `cfg_rem` -/
  | configRem (severity : Symbol)
  /-- `paused` -/
  | paused (caller : Address) (flag : Bool)
  /-- `unpause` -/
  | unpaused (caller : Address) (flag : Bool)
  /-- `op_set` -/
  | opSet (caller new_operator : Address)
  /-- `pruned` -/
  | pruned (caller : Address) (removed_count kept_count : Nat)
  /-- `pruned_a` -/
  | prunedAge (caller : Address) (removed_count kept_count : Nat)
  /-- `ret_lim` -/
  | retLim (caller : Address) (limit : Nat)
  /-- `adm_prop` -/
  | adminProp (caller new_admin : Address)
  /-- `adm_acc` -/
  | adminAcc (caller : Address)
  /-- `adm_can` -/
  | adminCan (caller : Address)
  /-- `adm_sup` -/
  | adminSup (caller superseded_admin new_admin : Address)
  /-- `adm_ren` -/
  | adminRen (caller : Address)
  /-- `adm_xp` -/
  | adminXp (caller expired_admin : Address)
  /-- `op_prop` -/
  | opProp (caller new_operator : Address)
  /-- `op_acc` -/
  | opAcc (caller : Address)
  /-- `op_can` -/
  | opCan (caller : Address)
  /-- `op_sup` -/
  | opSup (caller superseded_operator new_operator : Address)
  /-- `op_xp` -/
  | opXp (caller expired_operator : Address)
  /-- `cfg_frz` -/
  | configFreeze (caller : Address)
  /-- `cfg_unfrz` -/
  | configUnfreeze (caller : Address)
  /-- `stats_sat` -/
  | statsSat (counter : Symbol) (previous_value attempted_increment : Int)
  /-- `mig_done` -/
  | migrateDone (caller : Address) (stored current : Nat)
  deriving DecidableEq, Repr

end ApexChainx
