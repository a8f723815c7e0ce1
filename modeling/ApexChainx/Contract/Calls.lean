import ApexChainx.Contract.Calculate
import ApexChainx.Contract.Governance
import ApexChainx.Contract.Lifecycle
import ApexChainx.Host.Run

/-!
# Calls

Every entry point of the contract that may change its state, with its arguments, and the
program each one runs. The remaining entry points only read, so a run of the contract is a
sequence of these calls.
-/

namespace ApexChainx

open Host

/-- The state-changing entry points. -/
inductive Call where
  | initializeContract (admin operator : Address)
  | migrate (caller : Address)
  | setOperator (caller new_operator : Address)
  | proposeAdmin (caller new_admin : Address)
  | acceptAdmin (caller : Address)
  | cancelAdminProposal (caller : Address)
  | proposeOperator (caller new_operator : Address)
  | acceptOperator (caller : Address)
  | cancelOperatorProposal (caller : Address)
  | renounceAdmin (caller : Address)
  | pause (caller : Address) (reason : List UInt8)
  | unpause (caller : Address)
  | freezeConfig (caller : Address)
  | unfreezeConfig (caller : Address)
  | setConfig (caller : Address) (severity : Symbol) (threshold_minutes : Nat)
      (penalty_per_minute reward_base : Int)
  | setCustomSeverity (caller : Address) (severity : Symbol) (threshold_minutes : Nat)
      (penalty_per_minute reward_base : Int)
  | removeCustomSeverity (caller : Address) (severity : Symbol)
  | calculateSla (caller : Address) (outage_id severity : Symbol) (mttr_minutes : Nat)
  | pruneHistory (caller : Address) (keep_latest : Nat)
  | pruneHistoryByAge (caller : Address) (min_age_seconds : Nat)
  | setRetentionLimit (caller : Address) (limit : Nat)
  deriving DecidableEq, Repr

/-- What a call returns: `calculate_sla` returns its decision, the others nothing. -/
inductive Reply where
  | unit
  | decision (result : SLAResult)
  deriving DecidableEq, Repr

/-- A program that returns nothing, as a call. -/
def replyUnit (m : Contract Unit) : Contract Reply := do
  m
  pure .unit

/-- A program that returns a decision, as a call. -/
def replyDecision (m : Contract SLAResult) : Contract Reply := do
  let result ← m
  pure (.decision result)

/-- The program of a call. -/
def exec : Call → Contract Reply
  | .initializeContract admin operator =>
    replyUnit (initializeContract admin operator)
  | .migrate caller => replyUnit (migrate caller)
  | .setOperator caller new_operator => replyUnit (setOperator caller new_operator)
  | .proposeAdmin caller new_admin => replyUnit (proposeAdmin caller new_admin)
  | .acceptAdmin caller => replyUnit (acceptAdmin caller)
  | .cancelAdminProposal caller => replyUnit (cancelAdminProposal caller)
  | .proposeOperator caller new_operator => replyUnit (proposeOperator caller new_operator)
  | .acceptOperator caller => replyUnit (acceptOperator caller)
  | .cancelOperatorProposal caller => replyUnit (cancelOperatorProposal caller)
  | .renounceAdmin caller => replyUnit (renounceAdmin caller)
  | .pause caller reason => replyUnit (pause caller reason)
  | .unpause caller => replyUnit (unpause caller)
  | .freezeConfig caller => replyUnit (freezeConfig caller)
  | .unfreezeConfig caller => replyUnit (unfreezeConfig caller)
  | .setConfig caller severity threshold penalty reward =>
    replyUnit (setConfig caller severity threshold penalty reward)
  | .setCustomSeverity caller severity threshold penalty reward =>
    replyUnit (setCustomSeverity caller severity threshold penalty reward)
  | .removeCustomSeverity caller severity => replyUnit (removeCustomSeverity caller severity)
  | .calculateSla caller outage_id severity mttr_minutes =>
    replyDecision (calculateSla caller outage_id severity mttr_minutes)
  | .pruneHistory caller keep_latest => replyUnit (pruneHistory caller keep_latest)
  | .pruneHistoryByAge caller min_age => replyUnit (pruneHistoryByAge caller min_age)
  | .setRetentionLimit caller limit => replyUnit (setRetentionLimit caller limit)

/-- A transaction of the contract. -/
abbrev ContractTx := Tx Address Call

/-- The storage a run from a fresh deployment ends in. -/
abbrev after (txs : List ContractTx) : Storage := final exec Store.empty txs

end ApexChainx
