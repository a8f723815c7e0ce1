import Mathlib.Algebra.Order.Ring.Int
import ApexChainx.Contract.Config

/-!
# The hash mirror

`ts/configVersionHash.ts`: the configuration hash as the backend computes it, over BigInts that
are masked to 64 bits.
-/

namespace ApexChainx.TypeScript

/-- `SlaConfig` of `configVersionHash.ts`. -/
structure SlaConfig where
  severity : Symbol
  thresholdMinutes : Int
  penaltyPerMinute : Int
  rewardBase : Int
  deriving DecidableEq, Repr

/-- `CANONICAL_SEVERITIES`, as recorded from the contract. -/
def CANONICAL_SEVERITIES : List Symbol := [critical, high, medium, low]

/-- `BASE`. -/
def BASE : Int := 91138233

/-- `MODULUS`. -/
def MODULUS : Int := 2 ^ 63 - 25

/-- `FINAL_MIX`. -/
def FINAL_MIX : Int := 0x9e3779b97f4a7c15

/-- `u64`, that is `BigInt.asUintN(64, value)`. -/
def u64 (value : Int) : Int := value % 2 ^ 64

/-- `bySeverity.get(severity)`: a later configuration replaces an earlier one. -/
def bySeverity (configs : List SlaConfig) (severity : Symbol) : Option SlaConfig :=
  configs.reverse.find? (·.severity = severity)

/-- The body of the inner loop; `%` on BigInts truncates. -/
def foldField (acc : Int × Int) (field : Int) : Int × Int :=
  let (hash, power) := acc
  ((u64 (u64 (u64 (hash * BASE) + u64 field) * power)).tmod MODULUS,
    (u64 (power * BASE)).tmod MODULUS)

/-- The loop over the canonical severities; `none` when it throws. -/
def foldSeverities (configs : List SlaConfig) (acc : Int × Int) : List Symbol → Option (Int × Int)
  | [] => some acc
  | severity :: rest => do
    let config ← bySeverity configs severity
    foldSeverities configs
      ([config.thresholdMinutes, config.penaltyPerMinute, config.rewardBase].foldl foldField acc)
      rest

/-- `configVersionHash`. -/
def configVersionHash (configs : List SlaConfig) : Option Int := do
  let acc ← foldSeverities configs (1, 1) CANONICAL_SEVERITIES
  return (u64 (u64 (acc.1 * BASE) + FINAL_MIX)).tmod MODULUS

end ApexChainx.TypeScript
