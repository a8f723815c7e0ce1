import ApexChainx.Misc.Readers
import ApexChainx.Proofs.Ledger
import ApexChainx.Proofs.Pagination

/-!
# Paging while the contract is in use

A client pages through the history by offset, and between two of its reads anyone may call the
contract. What it reads are recorded decisions, in their order and none twice; it misses at most as
many as are evicted or pruned in the meantime, and a page that says that nothing follows closes the
account (`pages_follow`). The argument is that of `Tailed.read_sublist`: the retained history is an
end of the recorded decisions.
-/

namespace ApexChainx

open Host Misc

/-- The pages that a client reads from `offset` on, each after some more calls and with its own
limit. It advances by the number of entries it was given. -/
def session : List ContractTx → List (List ContractTx × Nat) → Nat → Trapping (List HistoryPage)
  | _, [], _ => pure []
  | txs, (later, limit) :: reads, offset => do
    let page ← getHistoryPageWithMeta offset limit (after (txs ++ later))
    let pages ← session (txs ++ later) reads (offset + page.items.length)
    return page :: pages

/-- The calls made during a session. -/
def callsDuring (reads : List (List ContractTx × Nat)) : List ContractTx := reads.flatMap Prod.fst

/-- What a session that begins after `txs` could read: the entries retained then and the decisions
recorded by the calls `later`. -/
def offered (txs later : List ContractTx) : List SLAResult :=
  History.readAllEntries (after txs) ++ decisions (committed exec (after txs) later)

/-- The number of those that are evicted or pruned. -/
def dropped (txs later : List ContractTx) : Nat :=
  (offered txs later).length - (History.readAllEntries (after (txs ++ later))).length

/-- The entries of the pages. -/
def entriesRead (pages : List HistoryPage) : List SLAResult := pages.flatMap HistoryPage.items

/-- The account of a session. -/
structure PagesFollow (txs later : List ContractTx) (pages : List HistoryPage) : Prop where
  misses : (entriesRead pages).Sublist
    ((offered txs later).take (dropped txs later + (entriesRead pages).length))
  still : dropped txs later = 0 →
    entriesRead pages = (offered txs later).take (entriesRead pages).length
  ended : ∀ page, pages.getLast? = some page → page.has_more = false →
    (offered txs later).length ≤ dropped txs later + (entriesRead pages).length

section Tails

theorem recorded_append (txs later : List ContractTx) :
    recorded (txs ++ later) = recorded txs ++ decisions (committed exec (after txs) later) := by
  rw [recorded, committed_append, decisions_append]
  rfl

variable {txs later : List ContractTx}

theorem readAllEntries_after (txs : List ContractTx) :
    History.readAllEntries (after txs) = (History.shards (after txs)).items :=
  History.readAllEntries_eq_items (sound_after txs).bounded

/-- The retained history, as an end of what was recorded. -/
def retainedLog (txs : List ContractTx) (htimes : NonDecreasing txs) : Tailed SLAResult where
  log := recorded txs
  kept := History.readAllEntries (after txs)
  suffix := by
    have hsuffix : (History.shards (after ([] ++ txs))).items <:+
        (History.shards (after [])).items ++ recorded txs := items_suffix_after htimes
    have hempty : (History.shards (after [])).items = [] := rfl
    rw [hempty] at hsuffix
    rw [readAllEntries_after]
    exact hsuffix

/-- Entries are recorded at its end and lost at its front. -/
theorem retained_later (htimes : NonDecreasing txs) (hlater : NonDecreasing (txs ++ later)) :
    (retainedLog txs htimes).Later (retainedLog (txs ++ later) hlater) := by
  constructor
  · exact ⟨_, (recorded_append txs later).symm⟩
  · have hsuffix := (items_suffix_after hlater).length_le
    rw [← readAllEntries_after, ← readAllEntries_after, List.length_append] at hsuffix
    simp only [Tailed.lost, retainedLog, recorded_append, List.length_append]
    omega

theorem drop_lost (htimes : NonDecreasing txs) :
    (recorded (txs ++ later)).drop (retainedLog txs htimes).lost = offered txs later := by
  have hle : (retainedLog txs htimes).lost ≤ (recorded txs).length := Nat.sub_le _ _
  have hkept : History.readAllEntries (after txs) =
      (recorded txs).drop (retainedLog txs htimes).lost := (retainedLog txs htimes).kept_eq
  rw [recorded_append, List.drop_append_of_le_length hle, ← hkept]
  rfl

theorem lost_sub_lost (htimes : NonDecreasing txs) (hlater : NonDecreasing (txs ++ later)) :
    (retainedLog (txs ++ later) hlater).lost - (retainedLog txs htimes).lost =
      dropped txs later := by
  have hkept := (retainedLog txs htimes).suffix.length_le
  simp only [Tailed.lost, retainedLog, dropped, offered, recorded_append, List.length_append]
    at hkept ⊢
  omega

end Tails

theorem length_session {txs : List ContractTx} {reads : List (List ContractTx × Nat)}
    {offset : Nat} {pages : List HistoryPage} (h : session txs reads offset = .ok pages) :
    pages.length = reads.length := by
  induction reads generalizing txs offset pages with
  | nil => cases h; rfl
  | cons first reads ih =>
    obtain ⟨page, -, h⟩ := bind_eq_ok.mp h
    obtain ⟨rest, hrest, h⟩ := bind_eq_ok.mp h
    cases h
    rw [List.length_cons, List.length_cons, ih hrest]

/-- Once the contract is initialized every read is answered. -/
theorem read_answered {txs : List ContractTx} (hinit : 0 < initializations txs)
    (offset limit : Nat) : ∃ p, getHistoryPageWithMeta offset limit (after txs) = .ok p ∧
      p.items = page (History.readAllEntries (after txs)) offset (min limit maxPageSize) ∧
      (0 < limit → p.has_more = false →
        (History.readAllEntries (after txs)).length ≤ offset + p.items.length) := by
  have version := checkVersion_eq_ok (u := ()).mpr (configSound_after hinit).version
  have hs := sound_after txs
  have hlen : (History.readAllEntries (after txs)).length ≤ unsignedMax 32 :=
    (length_readAllEntries hs).trans_le (len_le_max hs)
  refine ⟨_, getHistoryPageWithMeta_eq hs version offset limit, rfl, ?_⟩
  intro hlimit hmore
  simp only [Spec.expectedHasMore_eq hlen, hlimit, decide_true, Bool.true_and,
    decide_eq_false_iff_not] at hmore
  rw [length_page]
  omega

/-- A session is answered, and reads as a reader of the retained history does. -/
theorem session_reads {txs final : List ContractTx} {reads : List (List ContractTx × Nat)}
    (hfinal : txs ++ callsDuring reads = final) (hinit : 0 < initializations txs)
    (htxs : NonDecreasing txs) (htimes : NonDecreasing final) (offset : Nat) :
    ∃ pages moments, session txs reads offset = .ok pages ∧
      pages.map HistoryPage.items = Tailed.read moments offset ∧
      Tailed.Moments (retainedLog txs htxs) moments (retainedLog final htimes) := by
  induction reads generalizing txs offset with
  | nil =>
    obtain rfl : txs = final := by simpa [callsDuring] using hfinal
    exact ⟨[], [], rfl, rfl, .nil⟩
  | cons first reads ih =>
    obtain ⟨later, limit⟩ := first
    have hrest : (txs ++ later) ++ callsDuring reads = final := by
      simpa [callsDuring] using hfinal
    have hlater : NonDecreasing (txs ++ later) :=
      htimes.sublist (hrest ▸ List.sublist_append_left _ _)
    have hinit' : 0 < initializations (txs ++ later) :=
      hinit.trans_le (initializations_le (List.prefix_append _ _))
    obtain ⟨p, hpage, hitems, -⟩ := read_answered hinit' offset limit
    obtain ⟨pages, moments, hpages, hread, hmoments⟩ :=
      ih hrest hinit' hlater (offset + p.items.length)
    refine ⟨p :: pages,
      (retainedLog (txs ++ later) hlater, min limit maxPageSize) :: moments, ?_, ?_,
      .cons (retained_later htxs hlater) hmoments⟩
    · rw [session, hpage, ok_bind, hpages]
      rfl
    · rw [List.map_cons, hread, hitems]
      rfl

/-- A last page that says that nothing follows leaves nothing behind it. -/
theorem session_ended {txs : List ContractTx} {reads : List (List ContractTx × Nat)}
    (hlimits : ∀ read ∈ reads, 0 < read.2) {offset : Nat} {pages : List HistoryPage}
    (hpages : session txs reads offset = .ok pages) (hinit : 0 < initializations txs)
    {last : HistoryPage} (hlast : pages.getLast? = some last) (hmore : last.has_more = false) :
    (History.readAllEntries (after (txs ++ callsDuring reads))).length ≤
      offset + (entriesRead pages).length := by
  induction reads generalizing txs offset pages with
  | nil =>
    cases hpages
    cases hlast
  | cons first reads ih =>
    obtain ⟨later, limit⟩ := first
    have hinit' : 0 < initializations (txs ++ later) :=
      hinit.trans_le (initializations_le (List.prefix_append _ _))
    have hcalls : txs ++ callsDuring ((later, limit) :: reads) =
        (txs ++ later) ++ callsDuring reads := by simp [callsDuring]
    obtain ⟨p, hpage, -, hended⟩ := read_answered hinit' offset limit
    rw [session, hpage, ok_bind] at hpages
    obtain ⟨rest, hrest, hcons⟩ := bind_eq_ok.mp hpages
    cases hcons
    rw [hcalls]
    rw [List.getLast?_cons] at hlast
    simp only [entriesRead, List.flatMap_cons, List.length_append]
    cases hfollowing : rest.getLast? with
    | some following =>
      have := ih (fun read hread => hlimits read (List.mem_cons_of_mem _ hread)) hrest hinit'
        (by rw [hfollowing, ← hlast, hfollowing]; rfl)
      simp only [entriesRead] at this
      omega
    | none =>
      obtain rfl := List.getLast?_eq_none_iff.mp hfollowing
      obtain rfl : reads = [] := List.length_eq_zero_iff.mp (length_session hrest).symm
      rw [hfollowing] at hlast
      cases hlast
      have := hended (hlimits (later, limit) List.mem_cons_self) hmore
      simpa [callsDuring] using this

/-- Paging while the contract is in use, from any run after `initialize` on: every read is answered,
and the pages follow what the contract records. -/
theorem pages_follow (txs : List ContractTx) (reads : List (List ContractTx × Nat))
    (hinit : 0 < initializations txs) (htimes : NonDecreasing (txs ++ callsDuring reads))
    (hlimits : ∀ read ∈ reads, 0 < read.2) :
    ∃ pages, session txs reads 0 = .ok pages ∧ pages.length = reads.length ∧
      PagesFollow txs (callsDuring reads) pages := by
  have htxs : NonDecreasing txs := htimes.sublist (List.sublist_append_left _ _)
  obtain ⟨pages, moments, hpages, hread, hmoments⟩ := session_reads rfl hinit htxs htimes 0
  have hitems : entriesRead pages = (Tailed.read moments 0).flatten := by
    rw [← hread, entriesRead, List.flatMap_def]
  have hoffered : (recorded (txs ++ callsDuring reads)).drop (retainedLog txs htxs).lost =
      offered txs (callsDuring reads) := drop_lost htxs
  have hlost := lost_sub_lost htxs htimes
  have hgrows := hmoments.later.lost
  refine ⟨pages, hpages, length_session hpages, ?_, ?_, ?_⟩
  · have hsublist := Tailed.read_sublist hmoments 0
    rw [Nat.add_zero, hlost] at hsublist
    rw [hitems, ← hoffered]
    exact hsublist
  · intro hnone
    rw [hitems, ← hoffered]
    exact Tailed.read_of_lost_eq hmoments (by omega)
  · intro last hlast hmore
    have hended := session_ended hlimits hpages hinit hlast hmore
    simp only [dropped]
    omega

/-- A client reads a page of one entry, then one after a submission that evicts that entry, and a
last one after a prune. -/
def busyReads : List (List ContractTx × Nat) :=
  [([], 1), ([submitTen 7 critical], 1), ([⟨.pruneHistory ⟨1⟩ 1, ⟨[⟨1⟩], 8, 8⟩⟩], 5)]

theorem pages_follow_busyRun :
    ∃ pages, session busyRun busyReads 0 = .ok pages ∧ pages.length = 3 ∧
      PagesFollow busyRun (callsDuring busyReads) pages :=
  pages_follow busyRun busyReads (by decide)
    (by simp [NonDecreasing, callsDuring, busyReads, busyRun, launch, submitTen])
    (by simp [busyReads])

end ApexChainx
