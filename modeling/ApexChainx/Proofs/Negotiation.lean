import ApexChainx.Contract.VersionNegotiation

/-!
# Which groups pass the version handshake

Two contracts are compatible when each speaks a protocol the other accepts and their schemas
agree. The handshake checks the coordinator against every peer; a group is mutually compatible
when every two of its members are. What a handshake reports is decided by the checks of each peer,
in whatever order the peers come, and one more peer never improves it (`handshake_report`).
-/

namespace ApexChainx

/-- The protocol ranges of two contracts reach each other. -/
def ProtocolsMeet (x y : VersionNegotiationInfo) : Prop :=
  x.min_compatible_protocol ≤ y.protocol_version ∧ y.min_compatible_protocol ≤ x.protocol_version

/-- The dimensions that must match exactly. -/
def SameSchemas (x y : VersionNegotiationInfo) : Prop :=
  x.storage_version = y.storage_version ∧
    x.result_schema_version = y.result_schema_version ∧ x.event_version = y.event_version

/-- Two contracts can be deployed together. -/
def MutuallyCompatible (x y : VersionNegotiationInfo) : Prop :=
  ProtocolsMeet x y ∧ SameSchemas x y

theorem ProtocolsMeet.symm {x y : VersionNegotiationInfo} (h : ProtocolsMeet x y) :
    ProtocolsMeet y x := ⟨h.2, h.1⟩

theorem SameSchemas.symm {x y : VersionNegotiationInfo} (h : SameSchemas x y) :
    SameSchemas y x := ⟨h.1.symm, h.2.1.symm, h.2.2.symm⟩

theorem SameSchemas.trans {x y z : VersionNegotiationInfo} (h : SameSchemas x y)
    (h' : SameSchemas y z) : SameSchemas x z :=
  ⟨h.1.trans h'.1, h.2.1.trans h'.2.1, h.2.2.trans h'.2.2⟩

theorem MutuallyCompatible.symm {x y : VersionNegotiationInfo} (h : MutuallyCompatible x y) :
    MutuallyCompatible y x := ⟨h.1.symm, h.2.symm⟩

instance (x y : VersionNegotiationInfo) : Decidable (ProtocolsMeet x y) :=
  inferInstanceAs (Decidable (_ ∧ _))

instance (x y : VersionNegotiationInfo) : Decidable (SameSchemas x y) :=
  inferInstanceAs (Decidable (_ ∧ _ ∧ _))

instance (x y : VersionNegotiationInfo) : Decidable (MutuallyCompatible x y) :=
  inferInstanceAs (Decidable (_ ∧ _))

/-! ## The pass over the peers -/

section Pass

variable {our_info peer : VersionNegotiationInfo} {peer_infos : List VersionNegotiationInfo}
  {st : Negotiation}

theorem rejectIf_outcome {c : Prop} [Decidable c] {detail : VersionMismatchDetail} :
    (st.rejectIf c detail).outcome = .Incompatible ↔ c ∨ st.outcome = .Incompatible := by
  unfold Negotiation.rejectIf
  split <;> simp [*]

theorem rejectIf_of_not {c : Prop} [Decidable c] {detail : VersionMismatchDetail} (h : ¬ c) :
    st.rejectIf c detail = st := if_neg h

/-- The checks find nothing against a compatible peer. -/
theorem checkPeer_of_compatible (h : MutuallyCompatible our_info peer) :
    checkPeer our_info st peer = st := by
  obtain ⟨⟨hpeer, hour⟩, hstorage, hschema, hevent⟩ := h
  unfold checkPeer
  rw [rejectIf_of_not (c := peer.event_version ≠ our_info.event_version) (not_not.mpr hevent.symm),
    rejectIf_of_not (c := peer.result_schema_version ≠ _) (not_not.mpr hschema.symm),
    rejectIf_of_not (c := peer.storage_version ≠ _) (not_not.mpr hstorage.symm),
    rejectIf_of_not (Nat.not_lt.mpr hour), rejectIf_of_not (Nat.not_lt.mpr hpeer)]

/-- The checks fail exactly when they had failed before or the peer is not compatible with the
coordinator. -/
theorem checkPeer_incompatible :
    (checkPeer our_info st peer).outcome = .Incompatible ↔
      st.outcome = .Incompatible ∨ ¬ MutuallyCompatible our_info peer := by
  simp only [checkPeer, rejectIf_outcome, MutuallyCompatible, ProtocolsMeet, SameSchemas]
  grind

/-- A failed negotiation never recovers, and fails at the first incompatible peer. -/
theorem negotiatePeer_incompatible :
    (negotiatePeer our_info st peer).outcome = .Incompatible ↔
      st.outcome = .Incompatible ∨ ¬ MutuallyCompatible our_info peer := by
  rw [← checkPeer_incompatible]
  unfold negotiatePeer
  dsimp only
  split
  · rename_i hskew
    simp [hskew.1]
  · rfl

/-- The protocol skew is noted from the first peer that differs. -/
theorem negotiatePeer_compatible :
    (negotiatePeer our_info st peer).outcome = .Compatible ↔
      st.outcome = .Compatible ∧ MutuallyCompatible our_info peer ∧
        peer.protocol_version = our_info.protocol_version := by
  by_cases hpeer : MutuallyCompatible our_info peer
  · unfold negotiatePeer
    rw [checkPeer_of_compatible hpeer]
    dsimp only
    split
    · rename_i hskew
      simp [hskew.2]
    · simp only [hpeer, true_and]
      grind
  · have hfailed : (negotiatePeer our_info st peer).outcome = .Incompatible :=
      negotiatePeer_incompatible.mpr (.inr hpeer)
    simp [hfailed, hpeer]

theorem foldl_incompatible (st : Negotiation) :
    (peer_infos.foldl (negotiatePeer our_info) st).outcome = .Incompatible ↔
      st.outcome = .Incompatible ∨ ∃ peer ∈ peer_infos, ¬ MutuallyCompatible our_info peer := by
  induction peer_infos generalizing st with
  | nil => simp
  | cons peer rest ih =>
    rw [List.foldl_cons, ih, negotiatePeer_incompatible]
    simp [or_assoc]

theorem foldl_compatible (st : Negotiation) :
    (peer_infos.foldl (negotiatePeer our_info) st).outcome = .Compatible ↔
      st.outcome = .Compatible ∧ ∀ peer ∈ peer_infos, MutuallyCompatible our_info peer ∧
        peer.protocol_version = our_info.protocol_version := by
  induction peer_infos generalizing st with
  | nil => simp
  | cons peer rest ih =>
    rw [List.foldl_cons, ih, negotiatePeer_compatible]
    simp [and_assoc]

/-- The handshake fails exactly when some peer is not compatible with the coordinator. -/
theorem negotiate_incompatible_iff :
    (negotiateContractVersions our_info peer_infos).outcome = .Incompatible ↔
      ∃ peer ∈ peer_infos, ¬ MutuallyCompatible our_info peer := by
  simpa [negotiateContractVersions] using foldl_incompatible ⟨[], .Compatible⟩

theorem negotiate_passes_iff :
    (negotiateContractVersions our_info peer_infos).outcome ≠ .Incompatible ↔
      ∀ peer ∈ peer_infos, MutuallyCompatible our_info peer := by
  rw [Ne, negotiate_incompatible_iff]
  simp

/-- `Compatible` means that moreover every peer speaks the coordinator's protocol. -/
theorem negotiate_compatible_iff :
    (negotiateContractVersions our_info peer_infos).outcome = .Compatible ↔
      ∀ peer ∈ peer_infos, MutuallyCompatible our_info peer ∧
        peer.protocol_version = our_info.protocol_version := by
  simpa [negotiateContractVersions] using foldl_compatible ⟨[], .Compatible⟩

/-! ## The failing checks -/

/-- The checks that the handshake makes of a peer. -/
inductive PeerCheck where
  | peerProtocol
  | ourProtocol
  | storage
  | resultSchema
  | event
  deriving DecidableEq, Repr

namespace PeerCheck

/-- The checks, in the order they are made. -/
def all : List PeerCheck := [peerProtocol, ourProtocol, storage, resultSchema, event]

theorem mem_all (check : PeerCheck) : check ∈ all := by
  cases check <;> decide

/-- The peer does not pass the check. -/
def fails (our_info peer : VersionNegotiationInfo) : PeerCheck → Bool
  | peerProtocol => peer.protocol_version < our_info.min_compatible_protocol
  | ourProtocol => our_info.protocol_version < peer.min_compatible_protocol
  | storage => peer.storage_version ≠ our_info.storage_version
  | resultSchema => peer.result_schema_version ≠ our_info.result_schema_version
  | event => peer.event_version ≠ our_info.event_version

/-- The contract that a failing check names, with the version it reported, the one it had to
meet, and the dimension. -/
def detail (our_info peer : VersionNegotiationInfo) : PeerCheck → VersionMismatchDetail
  | peerProtocol => ⟨peer.contract_name, peer.protocol_version,
      our_info.min_compatible_protocol, protocolDimension⟩
  | ourProtocol => ⟨our_info.contract_name, our_info.protocol_version,
      peer.min_compatible_protocol, protocolDimension⟩
  | storage => ⟨peer.contract_name, peer.storage_version, our_info.storage_version,
      storageDimension⟩
  | resultSchema => ⟨peer.contract_name, peer.result_schema_version,
      our_info.result_schema_version, resultSchemaDimension⟩
  | event => ⟨peer.contract_name, 0, 0, eventDimension⟩

end PeerCheck

/-- The mismatches of one peer: a detail for each check it fails. -/
def peerMismatches (our_info peer : VersionNegotiationInfo) : List VersionMismatchDetail :=
  (PeerCheck.all.filter (·.fails our_info peer)).map (·.detail our_info peer)

/-- A peer passes every check exactly when it is compatible with the coordinator. -/
theorem passes_checks_iff :
    (∀ check : PeerCheck, check.fails our_info peer = false) ↔
      MutuallyCompatible our_info peer := by
  constructor
  · intro h
    have hpeer := h .peerProtocol
    have hour := h .ourProtocol
    have hstorage := h .storage
    have hschema := h .resultSchema
    have hevent := h .event
    simp only [PeerCheck.fails, decide_eq_false_iff_not, Nat.not_lt, not_not] at *
    exact ⟨⟨hpeer, hour⟩, hstorage.symm, hschema.symm, hevent.symm⟩
  · rintro ⟨⟨hpeer, hour⟩, hstorage, hschema, hevent⟩ check
    cases check <;> simp only [PeerCheck.fails, decide_eq_false_iff_not, Nat.not_lt, not_not]
    case peerProtocol => exact hpeer
    case ourProtocol => exact hour
    case storage => exact hstorage.symm
    case resultSchema => exact hschema.symm
    case event => exact hevent.symm

theorem fails_check_iff :
    (∃ check : PeerCheck, check.fails our_info peer = true) ↔
      ¬ MutuallyCompatible our_info peer := by
  rw [← passes_checks_iff]
  simp

theorem peerMismatches_eq_nil :
    peerMismatches our_info peer = [] ↔ MutuallyCompatible our_info peer := by
  rw [← passes_checks_iff]
  simp [peerMismatches, PeerCheck.mem_all]

theorem rejectIf_mismatches {c : Prop} [Decidable c] {detail : VersionMismatchDetail} :
    (st.rejectIf c detail).mismatches = st.mismatches ++ if c then [detail] else [] := by
  unfold Negotiation.rejectIf
  split <;> simp

/-- The details of a list of checks, one check at a time. -/
theorem details_cons (check : PeerCheck) (rest : List PeerCheck) :
    ((check :: rest).filter (·.fails our_info peer)).map (·.detail our_info peer) =
      (if check.fails our_info peer = true then [check.detail our_info peer] else []) ++
        (rest.filter (·.fails our_info peer)).map (·.detail our_info peer) := by
  by_cases h : check.fails our_info peer = true <;> simp [h]

/-- The loop body adds the mismatches of its peer. -/
theorem negotiatePeer_mismatches :
    (negotiatePeer our_info st peer).mismatches =
      st.mismatches ++ peerMismatches our_info peer := by
  have hcheck : (checkPeer our_info st peer).mismatches =
      st.mismatches ++ peerMismatches our_info peer := by
    rw [peerMismatches, PeerCheck.all]
    simp only [details_cons]
    simp [checkPeer, rejectIf_mismatches, PeerCheck.fails, PeerCheck.detail]
  rw [← hcheck]
  unfold negotiatePeer
  dsimp only
  split <;> rfl

theorem foldl_mismatches (st : Negotiation) :
    (peer_infos.foldl (negotiatePeer our_info) st).mismatches =
      st.mismatches ++ peer_infos.flatMap (peerMismatches our_info) := by
  induction peer_infos generalizing st with
  | nil => simp
  | cons peer rest ih =>
    rw [List.foldl_cons, ih, negotiatePeer_mismatches, List.flatMap_cons, List.append_assoc]

/-- The mismatches are those of the peers, in order. -/
theorem negotiate_mismatches :
    (negotiateContractVersions our_info peer_infos).mismatches =
      peer_infos.flatMap (peerMismatches our_info) := by
  simpa [negotiateContractVersions] using foldl_mismatches ⟨[], .Compatible⟩

/-- The handshake reports a mismatch exactly when it fails. -/
theorem negotiate_mismatches_eq_nil :
    (negotiateContractVersions our_info peer_infos).mismatches = [] ↔
      (negotiateContractVersions our_info peer_infos).outcome ≠ .Incompatible := by
  rw [negotiate_mismatches, negotiate_passes_iff]
  simp [peerMismatches_eq_nil]

/-! ## The outcome -/

/-- How good an outcome is. -/
def NegotiationOutcome.rank : NegotiationOutcome → Nat
  | .Incompatible => 0
  | .Negotiated => 1
  | .Compatible => 2

/-- The two extreme outcomes tell the third. -/
theorem outcome_congr {a b : NegotiationOutcome}
    (hincompatible : a = .Incompatible ↔ b = .Incompatible)
    (hcompatible : a = .Compatible ↔ b = .Compatible) : a = b := by
  cases a <;> cases b <;> simp_all

theorem rank_le_of_imp {a b : NegotiationOutcome} (hincompatible : b = .Incompatible →
    a = .Incompatible) (hcompatible : a = .Compatible → b = .Compatible) : a.rank ≤ b.rank := by
  cases a <;> cases b <;> simp_all [NegotiationOutcome.rank]

/-- The outcome sees which peers there are, in no order. -/
theorem negotiate_perm {others : List VersionNegotiationInfo} (h : peer_infos.Perm others) :
    (negotiateContractVersions our_info others).outcome =
      (negotiateContractVersions our_info peer_infos).outcome := by
  apply outcome_congr
  · simp only [negotiate_incompatible_iff, h.mem_iff]
  · simp only [negotiate_compatible_iff, h.mem_iff]

theorem negotiate_append_le (peer : VersionNegotiationInfo) :
    (negotiateContractVersions our_info (peer_infos ++ [peer])).outcome.rank ≤
      (negotiateContractVersions our_info peer_infos).outcome.rank := by
  apply rank_le_of_imp
  · simp only [negotiate_incompatible_iff]
    rintro ⟨other, hother, hbad⟩
    exact ⟨other, List.mem_append_left _ hother, hbad⟩
  · simp only [negotiate_compatible_iff]
    intro h other hother
    exact h other (List.mem_append_left _ hother)

theorem negotiate_swap (our_info peer : VersionNegotiationInfo) :
    (negotiateContractVersions peer [our_info]).outcome =
      (negotiateContractVersions our_info [peer]).outcome := by
  have hsymm : MutuallyCompatible peer our_info ↔ MutuallyCompatible our_info peer :=
    ⟨MutuallyCompatible.symm, MutuallyCompatible.symm⟩
  have hskew : our_info.protocol_version = peer.protocol_version ↔
      peer.protocol_version = our_info.protocol_version := ⟨Eq.symm, Eq.symm⟩
  apply outcome_congr
  · simp [negotiate_incompatible_iff, hsymm]
  · simp [negotiate_compatible_iff, hsymm, hskew]

/-- What the handshake of a contract with its peers reports. -/
structure HandshakeReport (our_info : VersionNegotiationInfo)
    (peer_infos : List VersionNegotiationInfo) : Prop where
  incompatible_iff : (negotiateContractVersions our_info peer_infos).outcome = .Incompatible ↔
    ∃ peer ∈ peer_infos, ∃ check : PeerCheck, check.fails our_info peer = true
  compatible_iff : (negotiateContractVersions our_info peer_infos).outcome = .Compatible ↔
    ∀ peer ∈ peer_infos, (∀ check : PeerCheck, check.fails our_info peer = false) ∧
      peer.protocol_version = our_info.protocol_version
  negotiated_iff : (negotiateContractVersions our_info peer_infos).outcome = .Negotiated ↔
    (∀ peer ∈ peer_infos, ∀ check : PeerCheck, check.fails our_info peer = false) ∧
      ∃ peer ∈ peer_infos, peer.protocol_version ≠ our_info.protocol_version
  mismatches : (negotiateContractVersions our_info peer_infos).mismatches =
    peer_infos.flatMap (peerMismatches our_info)
  none_iff : (negotiateContractVersions our_info peer_infos).mismatches = [] ↔
    (negotiateContractVersions our_info peer_infos).outcome ≠ .Incompatible
  unordered : ∀ others, peer_infos.Perm others →
    (negotiateContractVersions our_info others).outcome =
      (negotiateContractVersions our_info peer_infos).outcome
  worsens : ∀ peer, (negotiateContractVersions our_info (peer_infos ++ [peer])).outcome.rank ≤
    (negotiateContractVersions our_info peer_infos).outcome.rank
  symmetric : ∀ peer, peer_infos = [peer] →
    (negotiateContractVersions peer [our_info]).outcome =
      (negotiateContractVersions our_info peer_infos).outcome

/-- The outcome is the worst of the pairwise ones, and the mismatches are the failing checks. -/
theorem handshake_report (our_info : VersionNegotiationInfo)
    (peer_infos : List VersionNegotiationInfo) : HandshakeReport our_info peer_infos where
  incompatible_iff := by simp only [negotiate_incompatible_iff, fails_check_iff]
  compatible_iff := by simp only [negotiate_compatible_iff, passes_checks_iff]
  negotiated_iff := by
    simp only [passes_checks_iff]
    rw [← negotiate_passes_iff]
    constructor
    · intro h
      have houtcome : (negotiateContractVersions our_info peer_infos).outcome ≠ .Incompatible := by
        simp [h]
      refine ⟨houtcome, ?_⟩
      by_contra hsame
      push Not at hsame
      have hpasses := negotiate_passes_iff.mp houtcome
      have hcompatible := negotiate_compatible_iff.mpr fun peer hpeer =>
        ⟨hpasses peer hpeer, hsame peer hpeer⟩
      rw [h] at hcompatible
      cases hcompatible
    · rintro ⟨hpasses, peer, hpeer, hskew⟩
      cases houtcome : (negotiateContractVersions our_info peer_infos).outcome with
      | Compatible => exact absurd (negotiate_compatible_iff.mp houtcome peer hpeer).2 hskew
      | Negotiated => rfl
      | Incompatible => exact absurd houtcome hpasses
  mismatches := negotiate_mismatches
  none_iff := negotiate_mismatches_eq_nil
  unordered := fun _ h => negotiate_perm h
  worsens := negotiate_append_le
  symmetric := by
    rintro peer rfl
    exact negotiate_swap our_info peer

end Pass

/-! ## The group -/

/-- Every two members of a group accept each other's protocol and share their schemas. -/
def GroupCompatible (group : List VersionNegotiationInfo) : Prop :=
  ∀ (i j : Nat) (x y : VersionNegotiationInfo), i ≠ j → group[i]? = some x → group[j]? = some y →
    y.min_compatible_protocol ≤ x.protocol_version ∧ SameSchemas x y

theorem groupCompatible_iff {group : List VersionNegotiationInfo} :
    GroupCompatible group ↔ group.Pairwise MutuallyCompatible := by
  rw [List.pairwise_iff_getElem]
  constructor
  · intro h i j hi hj hij
    have hforth := h i j group[i] group[j] (by omega) (by simp) (by simp)
    have hback := h j i group[j] group[i] (by omega) (by simp) (by simp)
    exact ⟨⟨hback.1, hforth.1⟩, hforth.2⟩
  · intro h i j x y hij hx hy
    obtain ⟨hi, rfl⟩ := List.getElem?_eq_some_iff.mp hx
    obtain ⟨hj, rfl⟩ := List.getElem?_eq_some_iff.mp hy
    rcases Nat.lt_or_gt_of_ne hij with hlt | hgt
    · exact ⟨(h i j hi hj hlt).1.2, (h i j hi hj hlt).2⟩
    · exact ⟨(h j i hj hi hgt).1.1, (h j i hj hi hgt).2.symm⟩

section Group

variable {our_info : VersionNegotiationInfo} {peer_infos : List VersionNegotiationInfo}

/-- In a compatible group every member passes the handshake as the coordinator. -/
theorem passes_of_member {before after : List VersionNegotiationInfo}
    {member : VersionNegotiationInfo}
    (h : (before ++ member :: after).Pairwise MutuallyCompatible) :
    (negotiateContractVersions member (before ++ after)).outcome ≠ .Incompatible := by
  obtain ⟨_, hafter, hbefore⟩ := List.pairwise_append.mp h
  rw [negotiate_passes_iff]
  intro peer hpeer
  rcases List.mem_append.mp hpeer with hpeer | hpeer
  · exact (hbefore peer hpeer member List.mem_cons_self).symm
  · exact (List.pairwise_cons.mp hafter).1 peer hpeer

/-- The schemas of the peers agree with each other through the coordinator's; their protocol
ranges need not meet. -/
theorem pairwise_peers_iff (h : ∀ peer ∈ peer_infos, MutuallyCompatible our_info peer) :
    peer_infos.Pairwise MutuallyCompatible ↔ peer_infos.Pairwise ProtocolsMeet := by
  refine ⟨fun hall => hall.imp And.left, ?_⟩
  intro hmeet
  refine hmeet.imp_of_mem ?_
  intro x y hx hy hxy
  exact ⟨hxy, (h x hx).2.symm.trans (h y hy).2⟩

/-- The handshake promises a compatible group, whoever coordinates it, exactly when it fails or
the protocol ranges of the peers meet each other: it never compares the peers. -/
theorem handshake_iff (our_info : VersionNegotiationInfo)
    (peer_infos : List VersionNegotiationInfo) :
    ((negotiateContractVersions our_info peer_infos).outcome ≠ .Incompatible →
        GroupCompatible (our_info :: peer_infos) ∧
          ∀ before member after, our_info :: peer_infos = before ++ member :: after →
            (negotiateContractVersions member (before ++ after)).outcome ≠ .Incompatible) ↔
      (∃ peer ∈ peer_infos, ¬ MutuallyCompatible our_info peer) ∨
        peer_infos.Pairwise ProtocolsMeet := by
  constructor
  · intro hpromise
    by_cases hpasses : ∀ peer ∈ peer_infos, MutuallyCompatible our_info peer
    · have hgroup := groupCompatible_iff.mp (hpromise (negotiate_passes_iff.mpr hpasses)).1
      exact .inr ((pairwise_peers_iff hpasses).mp (List.pairwise_cons.mp hgroup).2)
    · exact .inl (by simpa using hpasses)
  · intro hcondition houtcome
    have hours := negotiate_passes_iff.mp houtcome
    have hmeet : peer_infos.Pairwise ProtocolsMeet := by
      rcases hcondition with ⟨peer, hpeer, hbad⟩ | hmeet
      · exact absurd (hours peer hpeer) hbad
      · exact hmeet
    have hgroup : (our_info :: peer_infos).Pairwise MutuallyCompatible :=
      List.pairwise_cons.mpr ⟨hours, (pairwise_peers_iff hours).mpr hmeet⟩
    refine ⟨groupCompatible_iff.mpr hgroup, ?_⟩
    intro before member after hsplit
    exact passes_of_member (hsplit ▸ hgroup)

end Group

/-- Our contract speaks protocol 3 and accepts any protocol from 1 on. -/
def wideCoordinator : VersionNegotiationInfo :=
  { buildNegotiationInfo 3 3 false with protocol_version := 3 }

/-- A peer left on protocol 1. -/
def olderPeer : VersionNegotiationInfo := buildNegotiationInfo 3 3 false

/-- A peer on protocol 5 that accepts no protocol below 2. -/
def newerPeer : VersionNegotiationInfo :=
  { buildNegotiationInfo 3 3 false with protocol_version := 5, min_compatible_protocol := 2 }

/-- The handshake passes a group whose two peers cannot talk to each other. -/
theorem handshake_passes_incompatible_group :
    ¬ ((negotiateContractVersions wideCoordinator [olderPeer, newerPeer]).outcome ≠ .Incompatible →
      GroupCompatible [wideCoordinator, olderPeer, newerPeer] ∧
        ∀ before member after,
          [wideCoordinator, olderPeer, newerPeer] = before ++ member :: after →
            (negotiateContractVersions member (before ++ after)).outcome ≠ .Incompatible) := by
  intro hpromise
  have hgroup := (hpromise (by decide)).1
  have hbound := (hgroup 1 2 olderPeer newerPeer (by decide) rfl rfl).1
  exact absurd hbound (by decide)

end ApexChainx
