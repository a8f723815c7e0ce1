import ApexChainx.Contract.CrossContractSafety
import Mathlib.Data.List.Induction

/-!
# What a rollback compensates

A workflow is followed by the calls it attempted since it was last finalized, each with the
answer of its target. The tracker registers the attempts whose target succeeded, and a rollback
invokes their compensations from the last one to the first (`rollback_compensates`). Where each of
these undoes its call, the rollback takes the other contracts back to where the workflow was last
finalized.
-/

namespace ApexChainx

variable {W : Type} {callees : Callees W}

/-- The invocation of a call. -/
def SafeCall.target (c : SafeCall) : Invocation := ⟨c.contract_id, c.function_name, c.args⟩

/-- The invocation that compensates a call, on the contract the call went to. -/
def SafeCall.compensation (c : SafeCall) : Invocation :=
  ⟨c.contract_id, c.compensation_tag, c.compensation_args⟩

/-- The stack entry of a call. -/
def SafeCall.entry (c : SafeCall) : Address × Symbol × CompensationAction :=
  (c.contract_id, c.function_name, ⟨c.compensation_tag, c.compensation_args⟩)

/-- The target call succeeded. -/
def TryInvoke.succeeded : TryInvoke → Bool
  | .err => false
  | _ => true

@[simp] theorem succeeded_okOk (val : RawVal) : (TryInvoke.okOk val).succeeded = true := rfl
@[simp] theorem succeeded_okErr : TryInvoke.okErr.succeeded = true := rfl
@[simp] theorem succeeded_err : TryInvoke.err.succeeded = false := rfl

/-- What a workflow has attempted: the world now, the world it was last finalized in, and the
calls attempted since with their answers. -/
structure Attempts (W : Type) where
  world : W
  base : W
  calls : List (SafeCall × TryInvoke)

/-- One step of the workflow, as an attempt. -/
def Attempts.step (callees : Callees W) (a : Attempts W) : SafetyOp → Attempts W
  | .call c =>
    let (answer, world) := callees c.target a.world
    ⟨world, a.base, a.calls ++ [(c, answer)]⟩
  | .finalize => ⟨a.world, a.world, []⟩

/-- The attempts of a workflow since it was last finalized. -/
def attempts (callees : Callees W) (ops : List SafetyOp) (world : W) : Attempts W :=
  ops.foldl (Attempts.step callees) ⟨world, world, []⟩

/-- The calls of a list whose target succeeded. -/
def successes (calls : List (SafeCall × TryInvoke)) : List SafeCall :=
  (calls.filter (fun attempt => attempt.2.succeeded)).map Prod.fst

theorem successes_concat {calls : List (SafeCall × TryInvoke)} {c : SafeCall}
    {answer : TryInvoke} :
    successes (calls ++ [(c, answer)]) =
      successes calls ++ if answer.succeeded then [c] else [] := by
  by_cases h : answer.succeeded <;> simp [successes, h]

/-! ## The tracker follows the attempts -/

/-- A call dispatches its target, and registers its entry when the target succeeded. -/
theorem step_call {wf : Workflow W} {c : SafeCall} {answer : TryInvoke} {world : W}
    (h : callees c.target wf.host.world = (answer, world)) :
    wf.step callees (.call c) =
      ⟨⟨wf.safety.compensation_stack ++ if answer.succeeded then [c.entry] else []⟩,
        ⟨world, wf.host.invoked ++ [c.target]⟩⟩ := by
  have hinvoke : tryInvokeContract callees ⟨c.contract_id, c.function_name, c.args⟩ wf.host =
      (answer, ⟨world, wf.host.invoked ++ [c.target]⟩) := by
    unfold tryInvokeContract
    rw [show callees ⟨c.contract_id, c.function_name, c.args⟩ wf.host.world = (answer, world)
      from h]
    rfl
  simp only [Workflow.step, CrossContractSafety.call, safeInvokeContract, hinvoke]
  cases answer with
  | okOk val => rfl
  | okErr => rfl
  | err => simp

/-- The tracker of a workflow holds the registered calls of its attempts. -/
structure FollowsAttempts (wf : Workflow W) (a : Attempts W) : Prop where
  world : wf.host.world = a.world
  stack : wf.safety.compensation_stack = (successes a.calls).map SafeCall.entry

theorem FollowsAttempts.step {wf : Workflow W} {a : Attempts W} (h : FollowsAttempts wf a)
    (op : SafetyOp) : FollowsAttempts (wf.step callees op) (a.step callees op) := by
  obtain ⟨hworld, hstack⟩ := h
  cases op with
  | finalize => exact ⟨hworld, rfl⟩
  | call c =>
    rcases hanswer : callees c.target a.world with ⟨answer, world⟩
    rw [step_call (hworld ▸ hanswer)]
    simp only [Attempts.step, hanswer]
    refine ⟨rfl, ?_⟩
    rw [successes_concat, List.map_append, ← hstack]
    by_cases hsucceeded : answer.succeeded <;> simp [hsucceeded]

theorem follows_run (callees : Callees W) (ops : List SafetyOp) (world : W) :
    FollowsAttempts (Workflow.run callees ops world) (attempts callees ops world) := by
  suffices hfold : ∀ (wf : Workflow W) (a : Attempts W), FollowsAttempts wf a →
      FollowsAttempts (ops.foldl (Workflow.step callees) wf)
        (ops.foldl (Attempts.step callees) a) from hfold _ _ ⟨rfl, rfl⟩
  induction ops with
  | nil => exact fun _ _ h => h
  | cons op rest ih => exact fun wf a h => ih _ _ (h.step op)

/-! ## Rolling back -/

section Rollback

variable {stack : List (Address × Symbol × CompensationAction)} {host : HostSide W}

theorem rollbackAll_nil : CrossContractSafety.rollbackAll callees ⟨[]⟩ host = (⟨[]⟩, host) := by
  rw [CrossContractSafety.rollbackAll]
  rfl

/-- The entry pushed last is compensated first. -/
theorem rollbackAll_concat {contract_id : Address} {function_name : Symbol}
    {action : CompensationAction} :
    CrossContractSafety.rollbackAll callees ⟨stack ++ [(contract_id, function_name, action)]⟩ host =
      CrossContractSafety.rollbackAll callees ⟨stack⟩
        (tryInvokeContract callees ⟨contract_id, action.tag, action.args⟩ host).2 := by
  rw [CrossContractSafety.rollbackAll]
  split
  · rename_i hlast
    simp at hlast
  · rename_i hlast
    obtain ⟨rfl, rfl, rfl⟩ := by simpa using hlast
    simp

/-- A rollback of the entries of some calls empties the stack and invokes their compensations in
reverse order. -/
theorem rollbackAll_entries (callees : Callees W) (host : HostSide W) (calls : List SafeCall) :
    (CrossContractSafety.rollbackAll callees ⟨calls.map SafeCall.entry⟩ host).1 = .new ∧
      (CrossContractSafety.rollbackAll callees ⟨calls.map SafeCall.entry⟩ host).2.invoked =
        host.invoked ++ calls.reverse.map SafeCall.compensation := by
  induction calls using List.reverseRecOn generalizing host with
  | nil => simp [rollbackAll_nil, CrossContractSafety.new]
  | append_singleton calls c ih =>
    rw [List.map_append, List.map_singleton, SafeCall.entry, rollbackAll_concat]
    refine ⟨(ih _).1, (ih _).2.trans ?_⟩
    simp [tryInvokeContract, SafeCall.compensation]

end Rollback

/-! ## What is compensated -/

/-- Every host value is a `Val`, so that the value of a successful invocation always converts. -/
def Converts (callees : Callees W) : Prop := ∀ target world, (callees target world).1 ≠ .okErr

/-- Callees whose failed invocations have no effect. -/
def Atomic (callees : Callees W) : Prop :=
  ∀ target world, (callees target world).1.succeeded = false → (callees target world).2 = world

/-- The compensation of the call undoes it where it succeeded. -/
def Undoable (callees : Callees W) (c : SafeCall) : Prop :=
  ∀ world, (callees c.target world).1.succeeded = true →
    (callees c.compensation (callees c.target world).2).2 = world

/-- The tracker takes a call for what it was: a success is returned and registered, and a failure
requires a rollback and registers nothing. -/
def Classified (callees : Callees W) (safety : CrossContractSafety) (host : HostSide W)
    (c : SafeCall) : Prop :=
  let answer := (callees c.target host.world).1
  let result := safety.call callees host c.contract_id c.function_name c.args c.compensation_tag
    c.compensation_args
  (answer.succeeded = true ∧ (∃ r, result.1 = .ok r ∧ r.status = .Success) ∧
      result.2.1 = ⟨safety.compensation_stack ++ [c.entry]⟩) ∨
    (answer.succeeded = false ∧ (∃ r, result.1 = .error r ∧ requiresRollback r.status = true) ∧
      result.2.1 = safety)

theorem classified (hconverts : Converts callees) (safety : CrossContractSafety)
    (host : HostSide W) (c : SafeCall) : Classified callees safety host c := by
  have hanswer := hconverts c.target host.world
  unfold Classified CrossContractSafety.call safeInvokeContract tryInvokeContract
  rw [show (⟨c.contract_id, c.function_name, c.args⟩ : Invocation) = c.target from rfl]
  generalize callees c.target host.world = called at hanswer ⊢
  obtain ⟨answer, world⟩ := called
  cases answer with
  | okOk val => exact .inl ⟨rfl, ⟨_, rfl, rfl⟩, rfl⟩
  | okErr => exact absurd rfl hanswer
  | err => exact .inr ⟨rfl, ⟨_, rfl, rfl⟩, rfl⟩

/-- Rolling the calls of the attempts back takes the world to their base. -/
def Restorable (callees : Callees W) (a : Attempts W) : Prop :=
  ∀ invoked, (CrossContractSafety.rollbackAll callees ⟨(successes a.calls).map SafeCall.entry⟩
    ⟨a.world, invoked⟩).2.world = a.base

theorem Restorable.step {a : Attempts W} (h : Restorable callees a) (hatomic : Atomic callees)
    {op : SafetyOp} (hundo : ∀ c, op = .call c → Undoable callees c) :
    Restorable callees (a.step callees op) := by
  cases op with
  | finalize => exact fun _ => congrArg (fun r => r.2.world) rollbackAll_nil
  | call c =>
    rcases hanswer : callees c.target a.world with ⟨answer, world⟩
    have hsame := hatomic c.target a.world
    have hundone := hundo c rfl a.world
    simp only [hanswer] at hsame hundone
    simp only [Restorable, Attempts.step, hanswer]
    intro invoked
    rw [successes_concat]
    by_cases hsucceeded : answer.succeeded = true
    · rw [if_pos hsucceeded, List.map_append, List.map_singleton, SafeCall.entry,
        rollbackAll_concat]
      simp only [tryInvokeContract]
      rw [show (callees ⟨c.contract_id, c.compensation_tag, c.compensation_args⟩ world).2 =
        a.world from hundone hsucceeded]
      exact h _
    · rw [if_neg hsucceeded, List.append_nil, hsame (by simpa using hsucceeded)]
      exact h _

theorem restorable_attempts (hatomic : Atomic callees) {ops : List SafetyOp}
    (hundo : ∀ c, .call c ∈ ops → Undoable callees c) (world : W) :
    Restorable callees (attempts callees ops world) := by
  suffices hfold : ∀ a : Attempts W, Restorable callees a →
      Restorable callees (ops.foldl (Attempts.step callees) a) from
    hfold _ fun _ => congrArg (fun r => r.2.world) rollbackAll_nil
  induction ops with
  | nil => exact fun _ h => h
  | cons op rest ih =>
    refine fun a h => ih (fun c hc => hundo c (List.mem_cons_of_mem op hc)) _ (h.step hatomic ?_)
    rintro c rfl
    exact hundo c List.mem_cons_self

/-- What `rollback_all` does at the end of a workflow: it invokes the compensations of the calls
that succeeded since the last `finalize`, from the last one to the first, and empties the stack. -/
structure Compensates (callees : Callees W) (ops : List SafetyOp) (world : W) : Prop where
  invoked : ((Workflow.run callees ops world).safety.rollbackAll callees
      (Workflow.run callees ops world).host).2.invoked =
    (Workflow.run callees ops world).host.invoked ++
      (successes (attempts callees ops world).calls).reverse.map SafeCall.compensation
  emptied : ((Workflow.run callees ops world).safety.rollbackAll callees
    (Workflow.run callees ops world).host).1.compensation_stack = []
  classified : ∀ safety host c, Classified callees safety host c
  restored : Atomic callees → (∀ c, .call c ∈ ops → Undoable callees c) →
    ((Workflow.run callees ops world).safety.rollbackAll callees
      (Workflow.run callees ops world).host).2.world = (attempts callees ops world).base

/-- Over every workflow, whatever its calls are answered. -/
theorem rollback_compensates (callees : Callees W) (hconverts : Converts callees)
    (ops : List SafetyOp) (world : W) : Compensates callees ops world := by
  obtain ⟨hworld, hstack⟩ := follows_run callees ops world
  have htracker : (Workflow.run callees ops world).safety =
      ⟨(successes (attempts callees ops world).calls).map SafeCall.entry⟩ :=
    congrArg CrossContractSafety.mk hstack
  obtain ⟨hempty, hinvoked⟩ := rollbackAll_entries callees (Workflow.run callees ops world).host
    (successes (attempts callees ops world).calls)
  refine ⟨?_, ?_, classified hconverts, ?_⟩
  · rw [htracker, hinvoked]
  · rw [htracker, hempty]
    rfl
  · intro hatomic hundo
    have hrestored := restorable_attempts hatomic hundo world
      (Workflow.run callees ops world).host.invoked
    rw [← hworld, ← hstack] at hrestored
    exact hrestored

/-- A call that locks funds, to be compensated by unlocking them. -/
def lockFunds : SafeCall :=
  ⟨⟨7⟩, symbolShort "lock_fnds", [], symbolShort "unlck_fnd", []⟩

/-- A call that releases a payment. -/
def releasePayment : SafeCall :=
  ⟨⟨7⟩, symbolShort "rel_pay", [], symbolShort "rev_setle", []⟩

/-- An escrow that counts what is locked, and refuses to release. -/
def escrow : Callees Int := fun target locked =>
  if target.function_name = lockFunds.function_name then (.okOk 1, locked + 1)
  else if target.function_name = lockFunds.compensation_tag then (.okOk 1, locked - 1)
  else (.err, locked)

theorem converts_escrow : Converts escrow := by
  intro target locked
  unfold escrow
  split
  · simp
  · split <;> simp

theorem atomic_escrow : Atomic escrow := by
  intro target locked
  unfold escrow
  split
  · simp
  · split <;> simp

theorem undoable_lockFunds : Undoable escrow lockFunds := by
  intro locked _
  have hunlock : lockFunds.compensation_tag ≠ lockFunds.function_name := by decide
  simp [escrow, SafeCall.target, SafeCall.compensation, hunlock]

theorem undoable_releasePayment : Undoable escrow releasePayment := by
  intro locked hsucceeded
  have hlock : releasePayment.function_name ≠ lockFunds.function_name := by decide
  have hunlock : releasePayment.function_name ≠ lockFunds.compensation_tag := by decide
  simp [escrow, SafeCall.target, hlock, hunlock] at hsucceeded

/-- Of the calls after the `finalize` the two locks are compensated, and one lock is left. -/
theorem rollback_compensates_escrow :
    let ops := [.call lockFunds, .finalize, .call lockFunds, .call releasePayment, .call lockFunds]
    let rolledBack := ((Workflow.run escrow ops 0).safety.rollbackAll escrow
      (Workflow.run escrow ops 0).host).2
    rolledBack.invoked = [lockFunds.target, lockFunds.target, releasePayment.target,
        lockFunds.target, lockFunds.compensation, lockFunds.compensation] ∧
      rolledBack.world = 1 := by
  intro ops rolledBack
  have h := rollback_compensates escrow converts_escrow ops 0
  have hundo : ∀ c, .call c ∈ ops → Undoable escrow c := by
    intro c hc
    obtain rfl | rfl : c = lockFunds ∨ c = releasePayment := by
      simp only [ops, List.mem_cons, SafetyOp.call.injEq, reduceCtorEq, List.not_mem_nil] at hc
      tauto
    · exact undoable_lockFunds
    · exact undoable_releasePayment
  refine ⟨h.invoked.trans (by decide), (h.restored atomic_escrow hundo).trans (by decide)⟩

end ApexChainx
