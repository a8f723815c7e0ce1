import ApexChainx.Contract.Access

/-!
# Governance

The role handoffs of `governance.rs`: two-step admin transfer, two-step operator handoff,
renouncing, and the single-step operator assignment.
-/

namespace ApexChainx

open Host

/-- `require_proposal_valid`. A lapsed proposal is cleared, with an event naming the stale
candidate, before the call fails. -/
def requireProposalValid (role : Role) (expiry_event : Address → Event) : Contract Unit := do
  let proposed ← Contract.getOr (.pendingTs role) .NoPendingTransfer
  let now ← Prog.timestamp
  if now - proposed ≤ proposalExpiryWindow then pure ()
  else do
    let stale ← Contract.get (.pending role)
    Prog.whenSome stale (fun stale => Contract.publish (expiry_event stale))
    Contract.remove (.pending role)
    Contract.remove (.pendingTs role)
    Prog.fail .ProposalExpired

/-- `require_new_admin_distinct`. -/
def requireNewAdminDistinct (caller new_admin : Address) : Contract Unit := do
  let current_admin ← Contract.getOr .admin .NotInitialized
  Contract.failIf (new_admin = current_admin ∨ new_admin = caller) .InvalidInput

/-- `propose_admin`. -/
def proposeAdmin (caller new_admin : Address) : Contract Unit := do
  Contract.reads checkVersion
  Contract.reads requireNotFrozen
  requireAdmin caller
  requireNewAdminDistinct caller new_admin
  let superseded ← Contract.get (.pending .admin)
  Contract.set (.pending .admin) new_admin
  let now ← Prog.timestamp
  Contract.set (.pendingTs .admin) now
  Prog.whenSome superseded (fun previous => Contract.publish (.adminSup caller previous new_admin))
  Contract.publish (.adminProp caller new_admin)

/-- `accept_admin`. -/
def acceptAdmin (caller : Address) : Contract Unit := do
  Contract.reads checkVersion
  Contract.reads requireNotFrozen
  Prog.requireAuth caller
  let pending ← Contract.getOr (.pending .admin) .NoPendingTransfer
  requireProposalValid .admin (.adminXp caller)
  Contract.failIf (caller ≠ pending) .Unauthorized
  Contract.set .admin caller
  Contract.remove (.pending .admin)
  Contract.remove (.pendingTs .admin)
  Contract.publish (.adminAcc caller)

/-- `cancel_admin_proposal`. -/
def cancelAdminProposal (caller : Address) : Contract Unit := do
  Contract.reads checkVersion
  Contract.reads requireNotFrozen
  requireAdmin caller
  let pending ← Contract.has (.pending .admin)
  Contract.failIf (pending = false) .NoPendingTransfer
  Contract.remove (.pending .admin)
  Contract.remove (.pendingTs .admin)
  Contract.publish (.adminCan caller)

/-- `propose_operator`. -/
def proposeOperator (caller new_operator : Address) : Contract Unit := do
  Contract.reads checkVersion
  Contract.reads requireNotFrozen
  requireAdmin caller
  let superseded ← Contract.get (.pending .operator)
  Contract.set (.pending .operator) new_operator
  let now ← Prog.timestamp
  Contract.set (.pendingTs .operator) now
  Prog.whenSome superseded (fun previous => Contract.publish (.opSup caller previous new_operator))
  Contract.publish (.opProp caller new_operator)

/-- `accept_operator`. -/
def acceptOperator (caller : Address) : Contract Unit := do
  Contract.reads checkVersion
  Contract.reads requireNotFrozen
  Prog.requireAuth caller
  let pending ← Contract.getOr (.pending .operator) .NoPendingTransfer
  requireProposalValid .operator (.opXp caller)
  Contract.failIf (caller ≠ pending) .Unauthorized
  Contract.set .operator caller
  Contract.remove (.pending .operator)
  Contract.remove (.pendingTs .operator)
  Contract.publish (.opAcc caller)

/-- `cancel_operator_proposal`. -/
def cancelOperatorProposal (caller : Address) : Contract Unit := do
  Contract.reads checkVersion
  Contract.reads requireNotFrozen
  requireAdmin caller
  let pending ← Contract.has (.pending .operator)
  Contract.failIf (pending = false) .NoPendingTransfer
  Contract.remove (.pending .operator)
  Contract.remove (.pendingTs .operator)
  Contract.publish (.opCan caller)

/-- Clear a pending operator proposal, if there is one, with an `op_can` event: the block that
`renounce_admin` and `set_operator` share. -/
def dropPendingOperator (caller : Address) : Contract Unit := do
  let pending ← Contract.has (.pending .operator)
  if pending then do
    Contract.remove (.pending .operator)
    Contract.remove (.pendingTs .operator)
    Contract.publish (.opCan caller)
  else pure ()

/-- `renounce_admin`. -/
def renounceAdmin (caller : Address) : Contract Unit := do
  Contract.reads checkVersion
  Contract.reads requireNotFrozen
  requireAdmin caller
  Contract.set .adminRenounced true
  Contract.remove .admin
  Contract.remove (.pending .admin)
  Contract.remove (.pendingTs .admin)
  dropPendingOperator caller
  Contract.publish (.adminRen caller)

/-- `set_operator`. -/
def setOperator (caller new_operator : Address) : Contract Unit := do
  Contract.reads checkVersion
  Contract.reads requireNotFrozen
  requireAdmin caller
  dropPendingOperator caller
  Contract.set .operator new_operator
  Contract.publish (.opSet caller new_operator)

end ApexChainx
