import ApexChainx.Contract.StorageEstimation
import ApexChainx.Proofs.Health
import ApexChainx.Proofs.Pagination
import ApexChainx.Proofs.VectorRefinement

/-!
# The slots of the history are not observable

The absolute indices an entry is kept under depend on what was evicted, pruned and rebuilt before.
No caller sees them: two deployments that hold the same keys outside the history and retain the
same entries answer every further call alike, commit the same events and stay so, and every read
of the history gives the same on both (`layout_unobservable`). Both are compared with one
single-vector deployment, which has no slots.
-/

namespace ApexChainx

open Host Misc

/-- The deployments hold the same outside the history, and retain the same entries. The slots of
the entries may differ. -/
structure SameContents (s s' : Storage) : Prop where
  shared : Store.Agree sharedKeys s s'
  entries : History.readAllEntries s' = History.readAllEntries s

/-- A deployment with an exact history, and room for `n` more entries. -/
structure Roomy (n : Nat) (s : Storage) : Prop where
  current : Current s
  history : HistoryExact s
  room : History.tail s + n < 2 ^ 32

/-- The replies and the events of a run. -/
def answers (s : Storage) (txs : List ContractTx) :
    List (Except (Fault SLAError) Reply × List Event) :=
  (trace exec s txs).map fun st => ((st.outcome exec).reply, st.events exec)

/-! ## One call -/

section Call

variable {s s' : Storage} {tx : ContractTx} {n : Nat}

/-- A call records at most one decision. -/
theorem length_decisions_le (hc : Current s) (tx : ContractTx) :
    (decisions (invoke exec tx s).events).length ≤ 1 := by
  rcases invoke_effect hc tx with ⟨r, s', evs, he, hi⟩ | ⟨x, hi⟩
  · rw [hi]
    rcases he.records_or_quiet with ⟨severity, cfg, result, hr⟩ | ⟨hquiet, -⟩
    · simp [hr.events]
    · simp [decisions_of_quiet hquiet]
  · simp [hi]

theorem Roomy.call (h : Roomy (n + 1) s) (hinit : tx.call.isInitialize = false) :
    Roomy n (invoke exec tx s).storage := by
  have hroom := h.room
  have hone := length_decisions_le h.current tx
  rcases invoke_effect h.current tx with ⟨r, s', evs, he, hi⟩ | ⟨x, hi⟩
  · rw [hi] at hone ⊢
    have hdecisions : (decisions evs).length ≤ 1 := hone
    obtain ⟨hexact, htail⟩ := he.historyExact h.history hinit (by omega)
    have hroom' : History.tail s' + n < 2 ^ 32 := by omega
    exact ⟨he.current h.current, hexact, hroom'⟩
  · rw [hi]
    exact ⟨h.current, h.history, Nat.lt_of_succ_lt hroom⟩

/-- The single-vector deployment with the same contents. -/
def twin (s : Storage) : Storage := s.set .history (History.readAllEntries s)

theorem SameContents.refines_twin (h : SameContents s s') (hs' : Roomy n s') :
    Refines s' (twin s) where
  shared := fun k hk => by
    rw [twin, Store.set_other _ _ (ne_history_of_shared hk).symm, h.shared k hk]
  history := by
    have hroom := hs'.room
    rw [← History.readAllEntries_eq_items (by omega), h.entries]
    simp [SingleVector.history, twin]

theorem SameContents.refl (s : Storage) : SameContents s s := ⟨fun _ _ => rfl, rfl⟩

/-- A call has the same outcome on both. -/
theorem SameContents.call (h : SameContents s s') (hs : Roomy (n + 1) s) (hs' : Roomy (n + 1) s')
    (hinit : tx.call.isInitialize = false) :
    (invoke exec tx s').reply = (invoke exec tx s).reply ∧
      (invoke exec tx s').events = (invoke exec tx s).events ∧
      SameContents (invoke exec tx s).storage (invoke exec tx s').storage := by
  have houtcome : ∀ {t : Storage}, SameContents s t → Roomy (n + 1) t →
      SameOutcome (invoke exec tx t) (invoke SingleVector.exec tx (twin s)) := by
    intro t hst ht
    have hroom := ht.room
    have hone := length_decisions_le ht.current tx
    refine sameOutcome ht.current (hst.refines_twin ht) ht.history.exact tx ?_ (by omega)
    simp [initializes, hinit]
  have hours := houtcome (SameContents.refl s) hs
  have htheirs := houtcome h hs'
  have hroom := (hs.call hinit).room
  have hroom' := (hs'.call hinit).room
  refine ⟨htheirs.reply.symm.trans hours.reply, htheirs.events.symm.trans hours.events, ?_, ?_⟩
  · intro k hk
    rw [hours.refines.shared k hk, htheirs.refines.shared k hk]
  · rw [History.readAllEntries_eq_items (by omega), History.readAllEntries_eq_items (by omega),
      ← htheirs.refines.history, ← hours.refines.history]

end Call

/-! ## Whole runs -/

section Runs

variable {s s' : Storage}

/-- The runs from both answer alike, and lead to the same contents. -/
theorem SameContents.along {later : List ContractTx} (h : SameContents s s')
    (hs : Roomy later.length s) (hs' : Roomy later.length s')
    (hinit : ∀ tx ∈ later, tx.call.isInitialize = false) :
    answers s' later = answers s later ∧ SameContents (final exec s later) (final exec s' later) ∧
      Roomy 0 (final exec s later) ∧ Roomy 0 (final exec s' later) := by
  induction later generalizing s s' with
  | nil => exact ⟨rfl, h, hs, hs'⟩
  | cons tx later ih =>
    have htx := hinit tx List.mem_cons_self
    obtain ⟨hreply, hevents, hnext⟩ := h.call hs hs' htx
    obtain ⟨hanswers, hrest⟩ := ih hnext (hs.call htx) (hs'.call htx) fun tx' htx' =>
      hinit tx' (List.mem_cons_of_mem tx htx')
    refine ⟨?_, hrest⟩
    have hcons : ∀ t : Storage, answers t (tx :: later) =
        ((invoke exec tx t).reply, (invoke exec tx t).events) ::
          answers (invoke exec tx t).storage later := fun _ => rfl
    rw [hcons, hcons, hreply, hevents, hanswers]

end Runs

/-! ## Reads -/

/-- Every read of the history gives the same on both. -/
structure SameReads (s s' : Storage) : Prop where
  history : getHistory s' = getHistory s
  outage : ∀ outage_id, getHistoryByOutage outage_id s' = getHistoryByOutage outage_id s
  latest : ∀ outage_id, getLatestByOutage outage_id s' = getLatestByOutage outage_id s
  page : ∀ offset limit, getHistoryPage offset limit s' = getHistoryPage offset limit s
  pageWithMeta : ∀ offset limit,
    getHistoryPageWithMeta offset limit s' = getHistoryPageWithMeta offset limit s
  view : ∀ outage_id severity mttr now,
    calculateSlaView outage_id severity mttr now s' = calculateSlaView outage_id severity mttr now s
  audit : getFullAuditState s' = getFullAuditState s
  footprint : StorageEstimation.getStorageFootprintEstimate s' =
    StorageEstimation.getStorageFootprintEstimate s

section Reads

variable {s s' : Storage} {n : Nat}

theorem Roomy.sound (h : Roomy n s) : (History.shards s).Sound SLAResult.outage_id 32 := by
  have hroom := h.room
  exact h.history.exact.sound (w := 32) (by rw [History.shards_tail]; omega)

section Reads

variable (h : SameContents s s')

include h

theorem SameContents.version : checkVersion s' = checkVersion s := by
  simp only [checkVersion, h.shared .storageVersion rfl]

theorem SameContents.lazilyCreated (custom_count : Nat) :
    StorageEstimation.bytesLazilyCreated s' custom_count =
      StorageEstimation.bytesLazilyCreated s custom_count := by
  have hkey : ∀ key bytes, key ∈ sharedKeys →
      StorageEstimation.bytesWhenPresent s' key bytes =
        StorageEstimation.bytesWhenPresent s key bytes := by
    intro key bytes hkey
    simp only [StorageEstimation.bytesWhenPresent, h.shared key hkey]
  simp only [StorageEstimation.bytesLazilyCreated, isConfigFrozen_congr calls_shared h.shared]
  simp [hkey, sharedKeys, isShared, History.isHistoryKey]

theorem SameContents.items (hs : Roomy n s) (hs' : Roomy n s') :
    (History.shards s').items = (History.shards s).items := by
  have hread := h.entries
  rwa [History.readAllEntries_eq_items hs.sound.bounded,
    History.readAllEntries_eq_items hs'.sound.bounded] at hread

/-- The retained entries decide every read. -/
theorem SameContents.reads (hs : Roomy n s) (hs' : Roomy n s') : SameReads s s' := by
  have hitems := h.items hs hs'
  have houtage : ∀ outage_id, History.entriesForOutage s' outage_id =
      History.entriesForOutage s outage_id := fun outage_id => by
    simp only [entriesForOutage_eq hs.history.exact, entriesForOutage_eq hs'.history.exact,
      ShardedLog.itemsOf, hitems]
  have hlatest : ∀ outage_id, History.latestForOutage s' outage_id =
      History.latestForOutage s outage_id := fun outage_id => by
    simp only [latestForOutage_eq hs.history.exact, latestForOutage_eq hs'.history.exact,
      ShardedLog.itemsOf, hitems]
  have hlen : History.len s' = History.len s := by
    rw [← length_readAllEntries hs.sound, ← length_readAllEntries hs'.sound, h.entries]
  refine ⟨?_, ?_, ?_, ?_, ?_, ?_, ?_, ?_⟩
  · simp only [getHistory, h.version, h.entries]
  · intro outage_id
    simp only [getHistoryByOutage, h.version, houtage]
  · intro outage_id
    simp only [getLatestByOutage, h.version, hlatest]
  · intro offset limit
    cases hversion : checkVersion s with
    | error e => simp [getHistoryPage, h.version, hversion]
    | ok _ => rw [getHistoryPage_eq hs.sound hversion,
        getHistoryPage_eq hs'.sound (h.version.trans hversion), h.entries]
  · intro offset limit
    cases hversion : checkVersion s with
    | error e => simp [getHistoryPageWithMeta, h.version, hversion]
    | ok _ => rw [getHistoryPageWithMeta_eq hs.sound hversion,
        getHistoryPageWithMeta_eq hs'.sound (h.version.trans hversion), h.entries]
  · intro outage_id severity mttr now
    simp only [calculateSlaView, h.version, loadConfig_congr calls_shared h.shared,
      computeSeverityConfigHash_congr calls_shared h.shared, hlatest]
  · have hfrozen := isConfigFrozen_congr calls_shared h.shared
    have hsnapshot := buildConfigSnapshot_congr calls_shared h.shared
    simp only [getFullAuditState, h.version, hsnapshot, isPaused, hfrozen,
      hs.history.historyLen, hs'.history.historyLen, hlen, h.shared .admin rfl,
      h.shared .operator rfl, h.shared .stats rfl, h.shared .paused rfl, h.shared .pauseInfo rfl,
      h.shared (.pending _) rfl]
  · simp only [StorageEstimation.getStorageFootprintEstimate, h.version, h.entries, hlen,
      h.lazilyCreated, h.shared .customConfig rfl]

end Reads

end Reads

/-! ## The theorem -/

theorem roomy_after {txs : List ContractTx} (hone : initializations txs = 1) {n : Nat}
    (hfew : (recorded txs).length + n < 2 ^ 32) : Roomy n (after txs) := by
  obtain ⟨hexact, htail⟩ := historyExact_after hone (by omega)
  exact ⟨current_after txs, hexact, by omega⟩

/-- Two runs that lead to the same contents cannot be told apart afterwards, whatever layouts of
the history they leave. -/
theorem layout_unobservable (txs txs' later : List ContractTx) (hone : initializations txs = 1)
    (hone' : initializations txs' = 1) (hfew : (recorded txs).length + later.length < 2 ^ 32)
    (hfew' : (recorded txs').length + later.length < 2 ^ 32)
    (hinit : ∀ tx ∈ later, tx.call.isInitialize = false)
    (hsame : SameContents (after txs) (after txs')) :
    answers (after txs') later = answers (after txs) later ∧
      SameReads (after (txs ++ later)) (after (txs' ++ later)) := by
  obtain ⟨hanswers, hend, hroomy, hroomy'⟩ :=
    hsame.along (roomy_after hone hfew) (roomy_after hone' hfew') hinit
  have hreads := hend.reads hroomy hroomy'
  rw [← final_append, ← final_append] at hreads
  exact ⟨hanswers, hreads⟩

/-- Two outages, decided one after the other. -/
def twoOutages : List ContractTx :=
  launch ++ [submitTen 2 critical,
    submission ⟨[⟨2⟩], 3, 3⟩ ⟨2⟩ (symbolShort "later" (by decide)) high 10]

/-- A trim by the admin in the ledger after them. -/
def trim (c : Call) : ContractTx := ⟨c, ⟨[⟨1⟩], 4, 4⟩⟩

/-- A prune by count moves the head past the first outage, a prune by age starts over. -/
theorem layout_unobservable_twoOutages :
    History.head (after (twoOutages ++ [trim (.pruneHistory ⟨1⟩ 1)])) = 1 ∧
      History.head (after (twoOutages ++ [trim (.pruneHistoryByAge ⟨1⟩ 1)])) = 0 ∧
      answers (after (twoOutages ++ [trim (.pruneHistoryByAge ⟨1⟩ 1)])) [submitTen 5 critical] =
        answers (after (twoOutages ++ [trim (.pruneHistory ⟨1⟩ 1)])) [submitTen 5 critical] := by
  refine ⟨by decide, by decide, And.left (layout_unobservable _ _ _ (by decide) (by decide)
    (by decide) (by decide) (by decide) ⟨?_, by decide⟩)⟩
  intro k hk
  cases k <;> first | rfl | cases hk

end ApexChainx
