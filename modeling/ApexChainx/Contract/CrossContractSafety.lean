import ApexChainx.Contract.Types

/-!
# Cross-contract call safety

Calls to other contracts that can be compensated (`cross_contract_safety.rs`). The other
contracts are code of their own: a host answers every invocation from, and into, a world that
the tracker does not see.
-/

namespace ApexChainx

/-- A host value as passed between contracts: a tagged 64-bit word. -/
abbrev RawVal := BitVec 64

/-- `Val::from(false)`. -/
def RawVal.ofFalse : RawVal := 0

/-- The answer of `env.try_invoke_contract::<Val, Val>`. -/
inductive TryInvoke where
  /-- `Ok(Ok(val))`: the invocation succeeded. -/
  | okOk (val : RawVal)
  /-- `Ok(Err(_))`: the invocation succeeded, but its value did not convert. -/
  | okErr
  /-- `Err(_)`: the invocation failed. -/
  | err
  deriving DecidableEq, Repr

/-- An invocation of another contract. -/
structure Invocation where
  contract_id : Address
  function_name : Symbol
  args : List RawVal
  deriving DecidableEq, Repr

/-- The other contracts: what an invocation answers, and the world it leaves. -/
abbrev Callees (W : Type) := Invocation → W → TryInvoke × W

/-- The host side: the world of the other contracts and the invocations dispatched so far. -/
structure HostSide (W : Type) where
  world : W
  invoked : List Invocation

/-- `CrossContractCallStatus`. -/
inductive CrossContractCallStatus where
  | Success
  | RecoverableError
  | FatalError
  | DispatchFailed
  | Compensated
  deriving DecidableEq, Repr

/-- `SafeCallResult`. -/
structure SafeCallResult where
  status : CrossContractCallStatus
  raw_output : RawVal
  error_symbol : Option Symbol
  deriving DecidableEq, Repr

/-- `CompensationAction`. -/
structure CompensationAction where
  tag : Symbol
  args : List RawVal
  deriving DecidableEq, Repr

/-- `CrossContractSafety`; the back of the stack is the end of the list. -/
structure CrossContractSafety where
  compensation_stack : List (Address × Symbol × CompensationAction)
  deriving DecidableEq, Repr

/-- The error symbol of a failed call. -/
def crossContractFailure : Symbol := symbolShort "CROSS_CONTRACT_FAILURE"

/-- `requires_rollback`. -/
def requiresRollback (status : CrossContractCallStatus) : Bool :=
  status == .FatalError || status == .DispatchFailed

theorem length_dropLast_lt {α : Type} {l : List α} {a : α} (h : l.getLast? = some a) :
    l.dropLast.length < l.length := by
  cases l with
  | nil => cases h
  | cons b rest => simp

section Operations

variable {W : Type} (callees : Callees W)

/-- `env.try_invoke_contract`. -/
def tryInvokeContract (target : Invocation) (host : HostSide W) : TryInvoke × HostSide W :=
  let (answer, world) := callees target host.world
  (answer, ⟨world, host.invoked ++ [target]⟩)

/-- `safe_invoke_contract`. -/
def safeInvokeContract (target : Invocation) (host : HostSide W) : SafeCallResult × HostSide W :=
  let (result, host) := tryInvokeContract callees target host
  match result with
  | .okOk val => (⟨.Success, val, none⟩, host)
  | .okErr => (⟨.RecoverableError, RawVal.ofFalse, some crossContractFailure⟩, host)
  | .err => (⟨.FatalError, RawVal.ofFalse, some crossContractFailure⟩, host)

namespace CrossContractSafety

/-- `CrossContractSafety::new`. -/
def new : CrossContractSafety := ⟨[]⟩

/-- `CrossContractSafety::call`; the result is `.ok` or `.error` as the source returns it. -/
def call (safety : CrossContractSafety) (host : HostSide W) (contract_id : Address)
    (function_name : Symbol) (args : List RawVal) (compensation_tag : Symbol)
    (compensation_args : List RawVal) :
    Except SafeCallResult SafeCallResult × CrossContractSafety × HostSide W :=
  let (result, host) := safeInvokeContract callees ⟨contract_id, function_name, args⟩ host
  match result.status with
  | .Success | .RecoverableError =>
    (.ok result, ⟨safety.compensation_stack ++
      [(contract_id, function_name, ⟨compensation_tag, compensation_args⟩)]⟩, host)
  | .FatalError | .DispatchFailed => (.error result, safety, host)
  | .Compensated => (.error result, safety, host)

/-- `CrossContractSafety::rollback_all`: pop the stack until it is empty. The answers of the
compensations are ignored. -/
def rollbackAll (safety : CrossContractSafety) (host : HostSide W) :
    CrossContractSafety × HostSide W :=
  match h : safety.compensation_stack.getLast? with
  | none => (safety, host)
  | some (contract_id, _, action) =>
    have := length_dropLast_lt h
    rollbackAll ⟨safety.compensation_stack.dropLast⟩
      (tryInvokeContract callees ⟨contract_id, action.tag, action.args⟩ host).2
termination_by safety.compensation_stack.length

/-- `CrossContractSafety::finalize`. -/
def finalize (_safety : CrossContractSafety) : CrossContractSafety := ⟨[]⟩

end CrossContractSafety

/-! ## Workflows -/

/-- The arguments of one `call`. -/
structure SafeCall where
  contract_id : Address
  function_name : Symbol
  args : List RawVal
  compensation_tag : Symbol
  compensation_args : List RawVal
  deriving DecidableEq, Repr

/-- A step of a multi-contract workflow. -/
inductive SafetyOp where
  | call (c : SafeCall)
  | finalize
  deriving DecidableEq, Repr

/-- A workflow in progress: its tracker and the host. -/
structure Workflow (W : Type) where
  safety : CrossContractSafety
  host : HostSide W

/-- Take one step of a workflow. -/
def Workflow.step (wf : Workflow W) : SafetyOp → Workflow W
  | .call c =>
    let (_, safety, host) := wf.safety.call callees wf.host c.contract_id c.function_name c.args
      c.compensation_tag c.compensation_args
    ⟨safety, host⟩
  | .finalize => ⟨wf.safety.finalize, wf.host⟩

/-- Run the steps of a workflow from a fresh tracker. -/
def Workflow.run (ops : List SafetyOp) (world : W) : Workflow W :=
  ops.foldl (Workflow.step callees) ⟨.new, ⟨world, []⟩⟩

end Operations

end ApexChainx
