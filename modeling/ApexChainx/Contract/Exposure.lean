import ApexChainx.Contract.Access
import ApexChainx.Contract.Config

/-!
# Economic exposure

`get_economic_exposure` of `lib.rs`: the largest reward and the penalty rate of every canonical
severity, with their totals. It only reads the configuration.
-/

namespace ApexChainx

open Misc

/-- `SeverityExposure`. -/
structure SeverityExposure where
  severity : Symbol
  max_reward : Int
  penalty_per_minute : Int
  deriving DecidableEq, Repr

/-- `EconomicExposure`. -/
structure EconomicExposure where
  total_max_reward : Int
  total_penalty_per_minute : Int
  breakdown : List SeverityExposure
  deriving DecidableEq, Repr

/-- The body of the loop of `get_economic_exposure`. -/
def exposeSeverity (s : Storage) (acc : EconomicExposure) (severity : Symbol) :
    Except SLAError EconomicExposure := do
  let cfg ← loadConfig severity s
  let max_reward ← okOr ((checked 128 (cfg.reward_base * 200)).map (· / 100)) .ExposureOverflow
  let penalty_rate := cfg.penalty_per_minute
  let total_max_reward ← okOr (checked 128 (acc.total_max_reward + max_reward)) .ExposureOverflow
  let total_penalty_per_minute ←
    okOr (checked 128 (acc.total_penalty_per_minute + penalty_rate)) .ExposureOverflow
  pure ⟨total_max_reward, total_penalty_per_minute,
    acc.breakdown ++ [⟨severity, max_reward, penalty_rate⟩]⟩

/-- `get_economic_exposure`. -/
def getEconomicExposure (s : Storage) : Except SLAError EconomicExposure := do
  checkVersion s
  canonicalSeverities.foldlM (exposeSeverity s) ⟨0, 0, []⟩

end ApexChainx
