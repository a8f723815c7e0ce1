import ApexChainx.Contract.Types

/-!
# Version negotiation

The handshake between the contracts of a deployment (`version_negotiation.rs`): what a contract
declares about itself, and the pass over its peers that a coordinator runs before deploying.
-/

namespace ApexChainx

/-- `VersionNegotiationInfo`. -/
structure VersionNegotiationInfo where
  contract_name : Symbol
  protocol_version : Nat
  storage_version : Nat
  min_compatible_protocol : Nat
  is_paused : Bool
  needs_migration : Bool
  result_schema_version : Nat
  event_version : Symbol
  deriving DecidableEq, Repr

/-- `NegotiationOutcome`. -/
inductive NegotiationOutcome where
  | Compatible
  | Negotiated
  | Incompatible
  deriving DecidableEq, Repr

/-- `VersionMismatchDetail`. -/
structure VersionMismatchDetail where
  contract_name : Symbol
  reported_protocol : Nat
  required_min : Nat
  dimension : Symbol
  deriving DecidableEq, Repr

/-- `VersionNegotiationResult`. -/
structure VersionNegotiationResult where
  outcome : NegotiationOutcome
  summary : Symbol
  mismatches : List VersionMismatchDetail
  deriving DecidableEq, Repr

/-- The values of `VersionMismatchDetail.dimension`. -/
def protocolDimension : Symbol := symbolShort "protocol"

@[inherit_doc protocolDimension]
def storageDimension : Symbol := symbolShort "storage"

@[inherit_doc protocolDimension]
def resultSchemaDimension : Symbol := symbolShort "result_schema"

@[inherit_doc protocolDimension]
def eventDimension : Symbol := symbolShort "event"

/-- The summary symbol of an outcome. -/
def NegotiationOutcome.summary : NegotiationOutcome → Symbol
  | .Compatible => symbolShort "compat"
  | .Negotiated => symbolShort "negoti"
  | .Incompatible => symbolShort "incompt"

/-- `PROTOCOL_VERSION`. -/
def protocolVersion : Nat := 1

/-- `MIN_COMPATIBLE_PROTOCOL`. -/
def minCompatibleProtocol : Nat := 1

/-- `RESULT_SCHEMA_VERSION`. -/
def resultSchemaVersion : Nat := 1

/-- `EVENT_VERSION`. -/
def eventVersion : Symbol := ⟨['v', '1'], by decide⟩

/-- `build_negotiation_info`. -/
def buildNegotiationInfo (storage_version expected_version : Nat) (is_paused : Bool) :
    VersionNegotiationInfo where
  contract_name := symbolShort "sla_calc"
  protocol_version := protocolVersion
  storage_version := storage_version
  min_compatible_protocol := minCompatibleProtocol
  is_paused := is_paused
  needs_migration := storage_version ≠ expected_version
  result_schema_version := resultSchemaVersion
  event_version := eventVersion

/-- The local variables of `negotiate_contract_versions`. -/
structure Negotiation where
  mismatches : List VersionMismatchDetail
  outcome : NegotiationOutcome
  deriving DecidableEq, Repr

/-- One check of the loop body: record the mismatch and turn the outcome incompatible. -/
def Negotiation.rejectIf (st : Negotiation) (c : Prop) [Decidable c]
    (detail : VersionMismatchDetail) : Negotiation :=
  if c then ⟨st.mismatches ++ [detail], .Incompatible⟩ else st

/-- The five checks of one peer. -/
def checkPeer (our_info : VersionNegotiationInfo) (st : Negotiation)
    (peer : VersionNegotiationInfo) : Negotiation :=
  let st := st.rejectIf (peer.protocol_version < our_info.min_compatible_protocol)
    ⟨peer.contract_name, peer.protocol_version, our_info.min_compatible_protocol,
      protocolDimension⟩
  let st := st.rejectIf (our_info.protocol_version < peer.min_compatible_protocol)
    ⟨our_info.contract_name, our_info.protocol_version, peer.min_compatible_protocol,
      protocolDimension⟩
  let st := st.rejectIf (peer.storage_version ≠ our_info.storage_version)
    ⟨peer.contract_name, peer.storage_version, our_info.storage_version, storageDimension⟩
  let st := st.rejectIf (peer.result_schema_version ≠ our_info.result_schema_version)
    ⟨peer.contract_name, peer.result_schema_version, our_info.result_schema_version,
      resultSchemaDimension⟩
  st.rejectIf (peer.event_version ≠ our_info.event_version)
    ⟨peer.contract_name, 0, 0, eventDimension⟩

/-- The body of the loop over the peers. -/
def negotiatePeer (our_info : VersionNegotiationInfo) (st : Negotiation)
    (peer : VersionNegotiationInfo) : Negotiation :=
  let st := checkPeer our_info st peer
  if st.outcome = .Compatible ∧ peer.protocol_version ≠ our_info.protocol_version then
    { st with outcome := .Negotiated }
  else st

/-- `negotiate_contract_versions`. -/
def negotiateContractVersions (our_info : VersionNegotiationInfo)
    (peer_infos : List VersionNegotiationInfo) : VersionNegotiationResult :=
  let st := peer_infos.foldl (negotiatePeer our_info) ⟨[], .Compatible⟩
  ⟨st.outcome, st.outcome.summary, st.mismatches⟩

end ApexChainx
