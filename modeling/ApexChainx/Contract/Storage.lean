import Mathlib.Algebra.Order.Ring.Nat
import ApexChainx.Contract.Types
import ApexChainx.Host.Prog
import ApexChainx.Misc.OrdMap

/-!
# Storage keys

The instance-storage keys of `lib.rs` (and `FREEZE`, `LCFGUPD` of their own modules) with the
type of the value each one holds.
-/

namespace ApexChainx

open Host Misc

/-- The two roles that are handed over through a pending proposal. -/
inductive Role where
  | admin
  | operator
  deriving DecidableEq, Repr

/-- The keys of the instance storage. The last two are the composite keys of the sharded
history, `(HIST_ENTRY_KEY, u32)` and `(HIST_INDEX_KEY, Symbol)`. -/
inductive StorageKey where
  /-- `ADMIN` -/
  | admin
  /-- `ADMINRN` -/
  | adminRenounced
  /-- `OPERATOR` -/
  | operator
  /-- `PADMIN` and `POP` -/
  | pending (role : Role)
  /-- `PADMINTS` and `POPTS` -/
  | pendingTs (role : Role)
  /-- `CONFIG` -/
  | config
  /-- `CUSTCFG` -/
  | customConfig
  /-- `CFGREG` -/
  | configRegistry
  /-- `PAUSED` -/
  | paused
  /-- `PAUSEINF` -/
  | pauseInfo
  /-- `STATS` -/
  | stats
  /-- `CALCCNT` -/
  | severityCalcCounts
  /-- `VIOLCNT` -/
  | severityViolCounts
  /-- `CALCTS` -/
  | lastCalculationTs
  /-- `VIOLTS` -/
  | lastViolationTs
  /-- `CUSTEL` -/
  | customTelemetry
  /-- `HIST`, the single vector used before storage version 3 -/
  | history
  /-- `HISTLEN` -/
  | historyLen
  /-- `HISTH` -/
  | histHead
  /-- `HISTT` -/
  | histTail
  /-- `CFGCNT` -/
  | configCount
  /-- `VER` -/
  | storageVersion
  /-- `RETLIM` -/
  | retentionLimit
  /-- `TTOTENT` -/
  | totalEntries
  /-- `LCFGUPD` -/
  | lastCfgUpdate
  /-- `FREEZE` -/
  | freeze
  /-- `(HISTE, index)` -/
  | histEntry (index : Nat)
  /-- `(HISTI, outage_id)` -/
  | histIndex (outage_id : Symbol)
  deriving DecidableEq, Repr

/-- The type of the value each key holds. -/
@[reducible] def StorageKey.Val : StorageKey → Type
  | admin | operator | pending _ => Address
  | adminRenounced | paused | freeze => Bool
  | pendingTs _ => Nat
  | config | customConfig => OrdMap Symbol SLAConfig
  | configRegistry => OrdMap Nat SLAConfigSnapshot
  | pauseInfo => PauseInfo
  | stats => SLAStats
  | severityCalcCounts | severityViolCounts | lastCalculationTs | lastViolationTs => BitVec 128
  | customTelemetry => BitVec 128
  | history => List SLAResult
  | historyLen | histHead | histTail | configCount | storageVersion => Nat
  | retentionLimit | totalEntries | lastCfgUpdate => Nat
  | histEntry _ => SLAResult
  | histIndex _ => List Nat

/-- The instance storage of the contract. -/
abbrev Storage := Store StorageKey.Val

/-- What an invocation may change. -/
abbrev ContractEnv := Env StorageKey.Val Event

/-- A program of the contract. -/
abbrev Contract := Prog Address StorageKey.Val Event SLAError

namespace Contract

/-- `env.storage().instance().get(k)`. -/
@[simp] abbrev get (k : StorageKey) : Contract (Option k.Val) := Prog.get k

/-- `env.storage().instance().get(k).unwrap_or(d)`. -/
@[simp] abbrev getD (k : StorageKey) (d : k.Val) : Contract k.Val := Prog.getD k d

/-- `env.storage().instance().get(k).ok_or(e)?`. -/
@[simp] abbrev getOr (k : StorageKey) (e : SLAError) : Contract k.Val := Prog.getOr k e

/-- `env.storage().instance().has(k)`. -/
@[simp] abbrev has (k : StorageKey) : Contract Bool := Prog.has k

/-- `env.storage().instance().set(k, v)`. -/
@[simp] abbrev set (k : StorageKey) (v : k.Val) : Contract Unit := Prog.set k v

/-- `env.storage().instance().remove(k)`. -/
@[simp] abbrev remove (k : StorageKey) : Contract Unit := Prog.remove k

/-- `env.events().publish(e)`. -/
@[simp] abbrev publish (e : Event) : Contract Unit := Prog.publish e

/-- A check that only reads the storage. -/
@[simp] abbrev reads {α : Type} (g : Storage → Except SLAError α) : Contract α := Prog.reads g

/-- A total read of the storage. -/
@[simp] abbrev ask {α : Type} (g : Storage → α) : Contract α := Prog.ask g

/-- `if c { return Err(e) }`. -/
@[simp] abbrev failIf (c : Prop) [Decidable c] (e : SLAError) : Contract Unit := Prog.failIf c e

end Contract

/-! ## Constants of `lib.rs` -/

/-- `STORAGE_VERSION`. -/
def storageVersion : Nat := 3

/-- `MAX_REASON_LEN`. -/
def maxReasonLen : Nat := 256

/-- `MAX_HISTORY_SIZE`. -/
def maxHistorySize : Nat := 1000

/-- `MAX_MTTR`, which is `spec::MAX_MTTR_MINUTES`. -/
def maxMttr : Nat := 525600

/-- `MAX_RECALCS_PER_OUTAGE`. -/
def maxRecalcsPerOutage : Nat := 16

/-- `CONFIG_HASH_BASE`. -/
def configHashBase : Nat := 91138233

/-- `CONFIG_HASH_MODULUS`. -/
def configHashModulus : Nat := 2 ^ 63 - 25

/-- `CONFIG_HASH_FINAL_MIX`. -/
def configHashFinalMix : Nat := 0x9e3779b97f4a7c15

/-- `governance::PROPOSAL_EXPIRY_WINDOW`. -/
def proposalExpiryWindow : Nat := 90 * 24 * 60 * 60

end ApexChainx
