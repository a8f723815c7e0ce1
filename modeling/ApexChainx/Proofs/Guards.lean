import ApexChainx.Contract.Governance
import ApexChainx.Contract.Lifecycle
import ApexChainx.Contract.Calculate

/-!
# What a guard lets through

For each guard and helper of the contract, the condition under which a program that starts with
it goes on, and the environment it goes on in. They are simp lemmas, so that unfolding an entry
point leaves the conditions it checked and the writes it made.
-/

namespace ApexChainx

open Host Misc

variable {α : Type} (f : Frame Address) (env env' : ContractEnv) (b : α)

@[simp] theorem checkVersion_eq_ok {s : Storage} {u : Unit} :
    checkVersion s = .ok u ↔ s .storageVersion = some storageVersion := by
  simp only [checkVersion, bind_eq_ok, okOr_eq_ok, refuseIf_eq_ok, Decidable.not_not]
  constructor
  · rintro ⟨v, hv, rfl⟩
    exact hv
  · intro h
    exact ⟨_, h, rfl⟩

@[simp] theorem requireNotFrozen_eq_ok {s : Storage} {u : Unit} :
    requireNotFrozen s = .ok u ↔ isConfigFrozen s = false := by
  simp [requireNotFrozen]

@[simp] theorem requireNotPaused_eq_ok {s : Storage} {u : Unit} :
    requireNotPaused s = .ok u ↔ isPaused s = false := by
  simp [requireNotPaused]

@[simp] theorem validateMttrBound_eq_ok {mttr : Nat} {u : Unit} :
    validateMttrBound mttr = .ok u ↔ mttr ≤ maxMttr := by
  simp [validateMttrBound]

@[simp] theorem returns_requireAdmin_bind (caller : Address) (g : Unit → Contract α) :
    (requireAdmin caller >>= g).Returns f env b env' ↔
      caller ∈ f.auths ∧ env.storage .adminRenounced = none ∧
        env.storage .admin = some caller ∧ (g ()).Returns f env b env' := by
  simp [requireAdmin]

@[simp] theorem returns_requireOperator_bind (caller : Address) (g : Unit → Contract α) :
    (requireOperator caller >>= g).Returns f env b env' ↔
      caller ∈ f.auths ∧ env.storage .operator = some caller ∧ (g ()).Returns f env b env' := by
  simp [requireOperator]

@[simp] theorem returns_requireNewAdminDistinct_bind (caller new_admin : Address)
    (g : Unit → Contract α) :
    (requireNewAdminDistinct caller new_admin >>= g).Returns f env b env' ↔
      ∃ admin, env.storage .admin = some admin ∧ new_admin ≠ admin ∧ new_admin ≠ caller ∧
        (g ()).Returns f env b env' := by
  simp [requireNewAdminDistinct, not_or, and_assoc]

@[simp] theorem returns_requireProposalValid_bind (role : Role) (expiry : Address → Event)
    (g : Unit → Contract α) :
    (requireProposalValid role expiry >>= g).Returns f env b env' ↔
      ∃ proposed, env.storage (.pendingTs role) = some proposed ∧
        f.timestamp - proposed ≤ proposalExpiryWindow ∧ (g ()).Returns f env b env' := by
  simp only [requireProposalValid, Contract.getOr, Contract.get, Contract.remove,
    Prog.returns_bind_assoc, Prog.returns_getOr_bind, Prog.returns_timestamp_bind,
    Prog.returns_ite_bind, Prog.returns_pure_bind, Prog.returns_get_bind]
  refine exists_congr fun proposed => and_congr_right fun _ => ?_
  -- the branch of a lapsed proposal always fails
  have hlapsed : ∀ o : Option Address, ¬ (Prog.whenSome o (fun a => Contract.publish (expiry a)) >>=
      fun _ => Prog.remove (.pending role) >>= fun _ => Prog.remove (.pendingTs role) >>= fun _ =>
        (Prog.fail .ProposalExpired : Contract Unit) >>= g).Returns f env b env' := by
    intro o
    cases o <;> simp
  constructor
  · rintro (h | ⟨-, h⟩)
    · exact h
    · exact absurd h (hlapsed _)
  · exact .inl

/-- The environment once a pending operator proposal is cleared. -/
def withoutPendingOperator (caller : Address) (env : ContractEnv) : ContractEnv :=
  if (env.storage (.pending .operator)).isSome then
    ((env.remove (.pending .operator)).remove (.pendingTs .operator)).publish (.opCan caller)
  else env

@[simp] theorem returns_dropPendingOperator_bind (caller : Address) (g : Unit → Contract α) :
    (dropPendingOperator caller >>= g).Returns f env b env' ↔
      (g ()).Returns f (withoutPendingOperator caller env) b env' := by
  by_cases h : (env.storage (.pending .operator)).isSome <;>
    simp [dropPendingOperator, withoutPendingOperator, h]

@[simp] theorem returns_recordConfigUpdate_bind (g : Unit → Contract α) :
    (recordConfigUpdate >>= g).Returns f env b env' ↔
      (g ()).Returns f (env.set .lastCfgUpdate f.sequence) b env' := by
  simp [recordConfigUpdate]

@[simp] theorem returns_recordConfigRegistry_bind (g : Unit → Contract α) :
    (recordConfigRegistry >>= g).Returns f env b env' ↔
      ∃ hash snapshot, computeConfigVersionHash env.storage = .ok hash ∧
        buildConfigSnapshot env.storage = .ok snapshot ∧
        (g ()).Returns f
          (env.set .configRegistry
            (((env.storage .configRegistry).getD OrdMap.empty).set hash snapshot)) b env' := by
  simp [recordConfigRegistry]

end ApexChainx
