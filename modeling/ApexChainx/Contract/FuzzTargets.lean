import ApexChainx.Contract.Calls
import ApexChainx.Contract.Pagination
import ApexChainx.Contract.Reads
import ApexChainx.Host.Driver

/-!
# Fuzz targets

The stateful fuzz targets of `fuzz/fuzz_targets/`: `history_state_machine`,
`governance_sequences` and `config_mutation_sequences`. Each deploys the contract, performs the
operations it decodes from its input, and asserts what must hold after them. `read_u32` and
`read_u64` are `ByteReader.word`; a round that cannot read its operands ends the loop. The body of
`get_retention_limit` is not in the repository, so the targets take it as a parameter.
-/

namespace ApexChainx.Fuzz

open Host Misc

/-- A driver of the contract. -/
abbrev Target := Driver StorageKey.Val

/-- What the environment of a target provides: the generated addresses, and the ledger time and
sequence number as long as the target does not set them. -/
structure Bench where
  admin : Address
  operator : Address
  candidates : Fin 4 → Address
  timestamp : Nat
  sequence : Nat

/-- `read_u32`. -/
def readU32 : ByteReader Nat := ByteReader.word 4

/-- `read_u64`. -/
def readU64 : ByteReader Nat := ByteReader.word 8

/-- A call at ledger time `now`, with all authorizations mocked. -/
def Bench.tx (b : Bench) (now : Nat) (call : Call) : ContractTx :=
  ⟨call, ⟨b.admin :: b.operator :: (List.finRange 4).map b.candidates, now, b.sequence⟩⟩

/-- `client.try_f(..).is_ok()`. -/
def Bench.try (b : Bench) (now : Nat) (call : Call) : Target Bool := do
  let reply ← Driver.submit exec (b.tx now call)
  pure reply.isOk

/-- `client.initialize(&admin, &operator)`. -/
def Bench.initialize (b : Bench) : Target Unit := do
  let ok ← b.try b.timestamp (.initializeContract b.admin b.operator)
  Driver.assert (ok = true)

/-- `MAX_OPS`. -/
def maxOps : Nat := 32

/-- `severity` and `canonical_severity`. -/
def canonicalSeverity (i : Nat) : Symbol :=
  match i % 4 with
  | 0 => critical
  | 1 => high
  | 2 => medium
  | _ => low

/-- `outage_id`. -/
def outageId (i : Nat) : Symbol :=
  match i % 8 with
  | 0 => symbolShort "out0"
  | 1 => symbolShort "out1"
  | 2 => symbolShort "out2"
  | 3 => symbolShort "out3"
  | 4 => symbolShort "out4"
  | 5 => symbolShort "out5"
  | 6 => symbolShort "out6"
  | _ => symbolShort "out7"

/-- `mttr`. -/
def mttr (raw : Nat) : Nat := raw % 2880

/-- `retention`. -/
def retention (raw : Nat) : Nat := 1 + raw % 1000

/-- The assertions on one stored entry. -/
def assertEntryWellFormed (entry : SLAResult) : Target Unit := do
  Driver.assert (entry.status = .met ∨ entry.status = .viol)
  if entry.status = .met then do
    Driver.assert (entry.payment_type = .rew)
    Driver.assert (entry.amount > 0)
    Driver.assert (entry.rating = .top ∨ entry.rating = .excel ∨ entry.rating = .good)
  else do
    Driver.assert (entry.payment_type = .pen)
    Driver.assert (entry.amount < 0)
    Driver.assert (entry.rating = .poor)

/-- `try_calculate_sla`, and the assertion that follows when it succeeds. -/
def calculateWithinLimit (getRetentionLimit : Storage → Except SLAError Nat) (b : Bench)
    (now : Nat) (outage severity : Symbol) (mttr_minutes : Nat) : Target Unit := do
  let ok ← b.try now (.calculateSla b.operator outage severity mttr_minutes)
  if ok then do
    let limit ← Driver.read getRetentionLimit
    let history ← Driver.read getHistory
    Driver.assert (history.length ≤ limit)
  else pure ()

/-! ## `history_state_machine` -/

/-- The operations of `history_state_machine`, with their raw operands. -/
inductive HistoryOp where
  | calculate (sev out m : Nat)
  | pruneKeep (raw : Nat)
  | pruneAge (raw : Nat)
  | setRetention (raw : Nat)
  | readPage (off lim : Nat)

/-- The opcodes of `history_state_machine`. -/
def HistoryOp.decoder : Decoder HistoryOp := .ofOpcode fun opcode =>
  match opcode.toNat % 5 with
  | 0 => do
    let sev ← readU32
    let out ← readU32
    let m ← readU32
    pure (.calculate sev out m)
  | 1 => do
    let raw ← readU32
    pure (.pruneKeep raw)
  | 2 => do
    let raw ← readU64
    pure (.pruneAge raw)
  | 3 => do
    let raw ← readU32
    pure (.setRetention raw)
  | _ => do
    let off ← readU32
    let lim ← readU32
    pure (.readPage off lim)

/-- `assert_entries_well_formed`. -/
def assertEntriesWellFormed : Target Unit := do
  let history ← Driver.read getHistory
  history.forM assertEntryWellFormed

/-- `assert_pagination_consistent`. -/
def assertPaginationConsistent (offset limit : Nat) : Target Unit := do
  let history ← Driver.read getHistory
  let total := wrap 32 history.length
  let page ← Driver.read (getHistoryPage offset limit)
  let info ← Driver.read (getHistoryPageWithMeta offset limit)
  page.zipIdx.forM fun (item, i) => do
    let other ← Driver.unwrap info.items[i]?
    Driver.assert (item = other)
  Driver.assert (page.length = info.items.length)
  Driver.assert (info.total = total)
  let effective_limit := min limit maxPageSize
  let expected_len :=
    if offset ≥ total ∨ effective_limit = 0 then 0 else min (total - offset) effective_limit
  Driver.assert (wrap 32 page.length = expected_len)
  let stop := min (saturatingAdd 32 offset effective_limit) total
  let expect_more := decide (effective_limit ≠ 0 ∧ stop < total)
  Driver.assert (info.has_more = expect_more)
  if limit = 0 ∨ offset ≥ total then Driver.assert (page.length = 0) else pure ()

/-- The comparison of one page with the stored history, from the entry `idx` on. -/
def matchPage (history : List SLAResult) (idx : Nat) (page : List SLAResult) : Target Nat :=
  page.foldlM (fun idx item => do
    let stored ← Driver.unwrap history[idx]?
    Driver.assert (item = stored)
    pure (idx + 1)) idx

/-- The page walk at the end of the target, in chunks of 64. -/
def walkPages (history : List SLAResult) (offset idx : Nat) : Target Nat := do
  let page ← Driver.read (getHistoryPage offset 64)
  let idx ← matchPage history idx page
  if wrap 32 history.length ≤ saturatingAdd 32 offset 64 then pure idx
  else walkPages history (saturatingAdd 32 offset 64) idx
termination_by wrap 32 history.length - offset
decreasing_by
  have hlen := wrap_lt 32 history.length
  simp only [saturatingAdd, unsignedMax] at *
  omega

/-- What `history_state_machine` does for one operation, at ledger time `now`. -/
def HistoryOp.run (getRetentionLimit : Storage → Except SLAError Nat) (b : Bench) (now : Nat) :
    HistoryOp → Target Unit
  | .calculate sev out m =>
    calculateWithinLimit getRetentionLimit b now (outageId out) (canonicalSeverity sev) (mttr m)
  | .pruneKeep raw => do
    let ok ← b.try now (.pruneHistory b.admin (raw % 300))
    if ok then do
      let history ← Driver.read getHistory
      Driver.assert (history.length ≤ raw % 300)
    else pure ()
  | .pruneAge raw => do
    let _ ← b.try now (.pruneHistoryByAge b.admin raw)
    assertEntriesWellFormed
  | .setRetention raw => do
    let _ ← b.try now (.setRetentionLimit b.admin (retention raw))
    let got ← Driver.read getRetentionLimit
    Driver.assert (got = retention raw ∨ got = 1000)
  | .readPage off lim => assertPaginationConsistent off lim

/-- One round of `history_state_machine`, which advances the clock `now`. -/
def HistoryOp.perform (getRetentionLimit : Storage → Except SLAError Nat) (b : Bench)
    (ops now : Nat) (op : HistoryOp) : Target (Nat × Bool) := do
  let now := saturatingAdd 64 now (1 + ops % 120)
  op.run getRetentionLimit b now
  pure (now, true)

/-- The checks at the end of `history_state_machine`. -/
def historyTerminalChecks : Target Unit := do
  assertEntriesWellFormed
  let history ← Driver.read getHistory
  let total := wrap 32 history.length
  let idx ← walkPages history 0 0
  Driver.assert (idx = total)
  assertPaginationConsistent 0 0
  assertPaginationConsistent 0 (unsignedMax 32)
  assertPaginationConsistent total 1
  assertPaginationConsistent (saturatingAdd 32 total 1) 200
  assertPaginationConsistent (unsignedMax 32) (unsignedMax 32)

/-- `history_state_machine`. -/
def historyStateMachine (getRetentionLimit : Storage → Except SLAError Nat) (b : Bench)
    (data : List UInt8) : Target Unit := do
  b.initialize
  let _ ← Driver.drive HistoryOp.decoder (HistoryOp.perform getRetentionLimit b) maxOps data 0
    1000000
  historyTerminalChecks

/-! ## `governance_sequences` -/

/-- The operations of `governance_sequences`, with their raw operands. -/
inductive GovernanceOp where
  | propose (role : Role) (raw : Nat)
  | accept (role : Role) (raw : Nat)
  | cancel (role : Role)
  | renounceAdmin
  | setOperator (raw : Nat)

/-- The opcodes of `governance_sequences`. -/
def GovernanceOp.decoder : Decoder GovernanceOp := .ofOpcode fun opcode =>
  match opcode.toNat % 8 with
  | 0 => do
    let raw ← readU32
    pure (.propose .admin raw)
  | 1 => do
    let raw ← readU32
    pure (.accept .admin raw)
  | 2 => pure (.cancel .admin)
  | 3 => pure .renounceAdmin
  | 4 => do
    let raw ← readU32
    pure (.propose .operator raw)
  | 5 => do
    let raw ← readU32
    pure (.accept .operator raw)
  | 6 => pure (.cancel .operator)
  | _ => do
    let raw ← readU32
    pure (.setOperator raw)

/-- `candidate`. -/
def Bench.candidate (b : Bench) (i : Nat) : Address := b.candidates (Fin.ofNat 4 i)

/-- `propose_admin` and `propose_operator`, as calls. -/
def proposeCall : Role → Address → Address → Call
  | .admin => .proposeAdmin
  | .operator => .proposeOperator

/-- `accept_admin` and `accept_operator`, as calls. -/
def acceptCall : Role → Address → Call
  | .admin => .acceptAdmin
  | .operator => .acceptOperator

/-- `cancel_admin_proposal` and `cancel_operator_proposal`, as calls. -/
def cancelCall : Role → Address → Call
  | .admin => .cancelAdminProposal
  | .operator => .cancelOperatorProposal

/-- The round that proposes a candidate: the proposal is pending, and a stranger cannot accept
it. -/
def tryPropose (b : Bench) (role : Role) (raw : Nat) : Target Unit := do
  let nominee := b.candidate raw
  let ok ← b.try b.timestamp (proposeCall role b.admin nominee)
  if ok then do
    let pending ← Driver.read (getPending role)
    Driver.assert (pending = some nominee)
    let wrong := b.candidate (wrap 32 (raw + 1))
    if wrong ≠ nominee then do
      let accepted ← b.try b.timestamp (acceptCall role wrong)
      Driver.assert (accepted = false)
    else pure ()
  else pure ()

/-- The round in which a candidate accepts: the proposal is gone, and the candidate has the role.
The admin is not read once it renounced. -/
def tryAccept (b : Bench) (renounced : Bool) (role : Role) (raw : Nat) : Target Unit := do
  let would_be := b.candidate raw
  let ok ← b.try b.timestamp (acceptCall role would_be)
  if ok then do
    let pending ← Driver.read (getPending role)
    Driver.assert (pending = none)
    match role with
    | .admin =>
      if renounced then pure ()
      else do
        let admin ← Driver.read getAdmin
        Driver.assert (admin = would_be)
    | .operator => do
      let operator ← Driver.read getOperator
      Driver.assert (operator = would_be)
  else pure ()

/-- The round that cancels a proposal: the proposal is gone. -/
def tryCancel (b : Bench) (role : Role) : Target Unit := do
  let ok ← b.try b.timestamp (cancelCall role b.admin)
  if ok then do
    let pending ← Driver.read (getPending role)
    Driver.assert (pending = none)
  else pure ()

/-- The assertion that nothing is pending. -/
def assertNothingPending : Target Unit := do
  let pending_admin ← Driver.read getPendingAdmin
  let pending_operator ← Driver.read getPendingOperator
  Driver.assert (pending_admin = none ∧ pending_operator = none)

/-- The round in which the admin renounces: whether it went through, and then nothing is
pending. -/
def tryRenounce (b : Bench) : Target Bool := do
  let ok ← b.try b.timestamp (.renounceAdmin b.admin)
  if ok then do
    assertNothingPending
    pure true
  else pure false

/-- The round that sets the operator. -/
def trySetOperator (b : Bench) (raw : Nat) : Target Unit := do
  let ok ← b.try b.timestamp (.setOperator b.admin (b.candidate raw))
  if ok then do
    let operator ← Driver.read getOperator
    Driver.assert (operator = b.candidate raw)
  else pure ()

/-- One round of `governance_sequences`. The rounds that the admin starts are skipped once it
renounced, and do not count then. -/
def GovernanceOp.perform (b : Bench) (_ops : Nat) (renounced : Bool) :
    GovernanceOp → Target (Bool × Bool)
  | .propose role raw =>
    if renounced then pure (renounced, false)
    else do
      tryPropose b role raw
      pure (renounced, true)
  | .accept role raw => do
    tryAccept b renounced role raw
    pure (renounced, true)
  | .cancel role =>
    if renounced then pure (renounced, false)
    else do
      tryCancel b role
      pure (renounced, true)
  | .renounceAdmin => do
    let ok ← tryRenounce b
    pure (renounced || ok, true)
  | .setOperator raw =>
    if renounced then pure (renounced, false)
    else do
      trySetOperator b raw
      pure (renounced, true)

/-- `governance_sequences`. -/
def governanceSequences (b : Bench) (data : List UInt8) : Target Unit := do
  b.initialize
  let renounced ← Driver.drive GovernanceOp.decoder (GovernanceOp.perform b) maxOps data 0 false
  if renounced then assertNothingPending else pure ()

/-! ## `config_mutation_sequences` -/

/-- The operations of `config_mutation_sequences`, with their raw operands. -/
inductive ConfigOp where
  | setConfig (sev thr pen rew : Nat)
  | setCustom (sev thr pen rew : Nat)
  | removeCustom (sev : Nat)
  | setRetention (raw : Nat)
  | calculate (sev out m : Nat)

/-- The opcodes of `config_mutation_sequences`. -/
def ConfigOp.decoder : Decoder ConfigOp := .ofOpcode fun opcode =>
  match opcode.toNat % 5 with
  | 0 => do
    let sev ← readU32
    let thr ← readU32
    let pen ← readU32
    let rew ← readU32
    pure (.setConfig sev thr pen rew)
  | 1 => do
    let sev ← readU32
    let thr ← readU32
    let pen ← readU32
    let rew ← readU32
    pure (.setCustom sev thr pen rew)
  | 2 => do
    let sev ← readU32
    pure (.removeCustom sev)
  | 3 => do
    let raw ← readU32
    pure (.setRetention raw)
  | _ => do
    let sev ← readU32
    let out ← readU32
    let m ← readU32
    pure (.calculate sev out m)

/-- `custom_severity`. -/
def customSeverity (i : Nat) : Symbol :=
  match i % 8 with
  | 0 => symbolShort "cust0"
  | 1 => symbolShort "cust1"
  | 2 => symbolShort "cust2"
  | 3 => symbolShort "cust3"
  | 4 => symbolShort "cust4"
  | 5 => symbolShort "cust5"
  | 6 => symbolShort "cust6"
  | _ => symbolShort "cust7"

/-- `any_severity`. -/
def anySeverity (i : Nat) : Symbol :=
  if i % 12 < 4 then canonicalSeverity (i % 12) else customSeverity (i % 12)

/-- `is_canonical`. -/
def isCanonical (s : Symbol) : Bool := s = critical ∨ s = high ∨ s = medium ∨ s = low

/-- `threshold`. -/
def threshold (raw : Nat) : Nat := 1 + raw % 1440

/-- `penalty`. -/
def penalty (raw : Nat) : Int := 1 + (raw % 10000 : Nat)

/-- `reward`. -/
def reward (raw : Nat) (penalty : Int) : Int :=
  min (saturatingSigned 128 (saturatingSigned 128 (penalty * 2) + (1 + (raw % 1000 : Nat)))) 100000

/-- The assertions on one configuration. -/
def assertConfigInRange (cfg : SLAConfig) : Target Unit := do
  Driver.assert (1 ≤ cfg.threshold_minutes ∧ cfg.threshold_minutes ≤ 1440)
  Driver.assert (1 ≤ cfg.penalty_per_minute ∧ cfg.penalty_per_minute ≤ 10000)
  Driver.assert (1 ≤ cfg.reward_base ∧ cfg.reward_base ≤ 100000)
  Driver.assert (cfg.penalty_per_minute * 3 < cfg.reward_base * 2)

/-- The assertions of `check_invariants` on the canonical snapshot. -/
def assertSnapshot (snapshot : SLAConfigSnapshot) : Target Unit := do
  Driver.assert (snapshot.entries.length = 4)
  (List.range 4).forM fun i => do
    let entry ← Driver.unwrap snapshot.entries[i]?
    Driver.assert (entry.severity = canonicalSeverity i)
    assertConfigInRange entry.config
  let e₀ ← Driver.unwrap snapshot.entries[0]?
  let e₁ ← Driver.unwrap snapshot.entries[1]?
  let e₂ ← Driver.unwrap snapshot.entries[2]?
  let e₃ ← Driver.unwrap snapshot.entries[3]?
  Driver.assert (e₀.config.penalty_per_minute ≥ e₁.config.penalty_per_minute ∧
    e₁.config.penalty_per_minute ≥ e₂.config.penalty_per_minute)
  Driver.assert (e₀.config.threshold_minutes ≤ e₁.config.threshold_minutes ∧
    e₁.config.threshold_minutes ≤ e₂.config.threshold_minutes ∧
    e₂.config.threshold_minutes ≤ e₃.config.threshold_minutes)

/-- `check_invariants`. -/
def checkInvariants (getRetentionLimit : Storage → Except SLAError Nat) : Target Unit := do
  let limit ← Driver.read getRetentionLimit
  Driver.assert (1 ≤ limit ∧ limit ≤ 1000)
  let snapshot ← Driver.read getConfigSnapshot
  assertSnapshot snapshot
  let custom ← Driver.read getCustomConfigSnapshot
  custom.entries.forM fun entry => do
    Driver.assert (isCanonical entry.severity = false)
    assertConfigInRange entry.config
  let history ← Driver.read getHistory
  Driver.assert (history.length ≤ 1000)
  history.forM fun entry => do
    assertEntryWellFormed entry
    Driver.assert (1 ≤ entry.threshold_minutes ∧ entry.threshold_minutes ≤ 1440)

/-- What `config_mutation_sequences` does for one operation. -/
def ConfigOp.run (getRetentionLimit : Storage → Except SLAError Nat) (b : Bench) :
    ConfigOp → Target Unit
  | .setConfig sev thr pen rew => do
    let p := penalty pen
    let _ ← b.try b.timestamp
      (.setConfig b.admin (canonicalSeverity sev) (threshold thr) p (reward rew p))
  | .setCustom sev thr pen rew => do
    let p := penalty pen
    let _ ← b.try b.timestamp
      (.setCustomSeverity b.admin (customSeverity sev) (threshold thr) p (reward rew p))
  | .removeCustom sev => do
    let _ ← b.try b.timestamp (.removeCustomSeverity b.admin (customSeverity sev))
  | .setRetention raw => do
    let _ ← b.try b.timestamp (.setRetentionLimit b.admin (retention raw))
  | .calculate sev out m =>
    calculateWithinLimit getRetentionLimit b b.timestamp (outageId out) (anySeverity sev) (mttr m)

/-- One round of `config_mutation_sequences`. -/
def ConfigOp.perform (getRetentionLimit : Storage → Except SLAError Nat) (b : Bench)
    (_ops : Nat) (_ : Unit) (op : ConfigOp) : Target (Unit × Bool) := do
  op.run getRetentionLimit b
  pure ((), true)

/-- `config_mutation_sequences`. -/
def configMutationSequences (getRetentionLimit : Storage → Except SLAError Nat) (b : Bench)
    (data : List UInt8) : Target Unit := do
  b.initialize
  let _ ← Driver.drive ConfigOp.decoder (ConfigOp.perform getRetentionLimit b) maxOps data 0 ()
  checkInvariants getRetentionLimit

end ApexChainx.Fuzz
