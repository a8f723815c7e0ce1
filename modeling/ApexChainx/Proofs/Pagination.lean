import ApexChainx.Contract.Pagination
import ApexChainx.Misc.Pages
import ApexChainx.Proofs.HistoryInvariant

/-!
# Pagination is exact and complete

Every paginated read selects `page (readAllEntries s) offset (min limit 200)`: over the sharded
history for any head, over the single vector and in the mirror. Their clamping differs, and the
one arithmetic fact behind all of them is that a saturated end index is clamped to the length.
-/

namespace ApexChainx

open Host Misc

/-- The clamp to the length hides the saturation. -/
theorem saturated_end {offset limit len : Nat} (h : len ≤ unsignedMax 32) :
    min (saturatingAdd 32 offset limit) len = min (offset + limit) len := by
  simp only [saturatingAdd]
  omega

theorem Spec.expectedPageEnd_eq {offset limit len : Nat} (h : len ≤ unsignedMax 32) :
    Spec.expectedPageEnd offset limit len = min (offset + min limit maxPageSize) len := by
  rw [← saturated_end h]
  unfold Spec.expectedPageEnd
  have hclamp : (if limit > maxPageSize then maxPageSize else limit) = min limit maxPageSize := by
    split <;> omega
  rw [hclamp]
  dsimp only
  split <;> omega

theorem Spec.expectedHasMore_eq {offset limit len : Nat} (h : len ≤ unsignedMax 32) :
    Spec.expectedHasMore offset limit len =
      (decide (0 < limit) && decide (offset + min limit maxPageSize < len)) := by
  unfold Spec.expectedHasMore
  rw [Spec.expectedPageEnd_eq h]
  by_cases hlimit : limit = 0
  · simp [hlimit]
  · simp only [if_neg hlimit, Nat.pos_of_ne_zero hlimit, decide_true, Bool.true_and]
    congr 1
    rw [eq_iff_iff]
    omega

/-! ## The sharded history -/

section Sharded

variable {s : Storage}

/-- A range of the window is a page of the whole history. -/
theorem readRange_eq_page (hs : (History.shards s).Sound SLAResult.outage_id 32)
    {offset count : Nat} (h : offset + count ≤ History.len s) :
    History.readRange s (History.head s + offset) count =
      page (History.readAllEntries s) offset count := by
  have hbounded : History.tail s < 2 ^ 32 := hs.bounded
  have hwindow : page (History.shards s).window offset count =
      List.range' (History.head s + offset) count := page_range' h
  rw [History.readAllEntries_eq_items hbounded, ShardedLog.items,
    filterMap_page (fun i hi => hs.present i hi), hwindow]
  have hcount : saturatingAdd 32 (History.head s + offset) count - (History.head s + offset) =
      count := by
    simp only [History.len] at h
    simp only [saturatingAdd, unsignedMax]
    omega
  rw [History.readRange, hcount]
  rfl

/-- The number of retained entries is a `u32`. -/
theorem len_le_max (hs : (History.shards s).Sound SLAResult.outage_id 32) :
    History.len s ≤ unsignedMax 32 := by
  have hbounded : History.tail s < 2 ^ 32 := hs.bounded
  simp only [History.len, unsignedMax]
  omega

/-- Reading a page that starts within the history traps nowhere. -/
theorem readPage {α : Type} (hs : (History.shards s).Sound SLAResult.outage_id 32)
    {offset : Nat} (hoffset : offset < History.len s) (limit : Nat)
    (g : List SLAResult → Trapping α) :
    (do
      let start ← orTrap (checkedAdd 32 (History.head s) offset)
      let count ← orTrap (panickingSub (min (saturatingAdd 32 offset limit) (History.len s)) offset)
      g (History.readRange s start count)) =
    g (page (History.readAllEntries s) offset limit) := by
  have hbounded : History.tail s < 2 ^ 32 := hs.bounded
  have hlen := len_le_max hs
  have hstart : checkedAdd 32 (History.head s) offset = some (History.head s + offset) := by
    refine if_pos ?_
    simp only [History.len] at hoffset
    simp only [unsignedMax]
    omega
  have hcount : panickingSub (min (offset + limit) (History.len s)) offset =
      some (min (offset + limit) (History.len s) - offset) := if_pos (by omega)
  rw [saturated_end hlen, hstart, hcount]
  simp only [orTrap, okOr_some, ok_bind]
  rw [readRange_eq_page hs (by omega), ← length_readAllEntries hs, page_clamp]

/-- The page the contract returns. -/
theorem getHistoryPage_eq (hs : (History.shards s).Sound SLAResult.outage_id 32)
    (version : checkVersion s = .ok ()) (offset limit : Nat) :
    getHistoryPage offset limit s =
      .ok (page (History.readAllEntries s) offset (min limit maxPageSize)) := by
  have hlength := length_readAllEntries hs
  unfold getHistoryPage
  rw [version, mapError_ok, ok_bind]
  dsimp only
  by_cases hempty : offset ≥ History.len s ∨ min limit maxPageSize = 0
  · rw [page_eq_nil (by omega)]
    exact if_pos hempty
  · exact (if_neg hempty).trans (readPage hs (by omega) _ pure)

/-- The page with its metadata. -/
theorem getHistoryPageWithMeta_eq (hs : (History.shards s).Sound SLAResult.outage_id 32)
    (version : checkVersion s = .ok ()) (offset limit : Nat) :
    getHistoryPageWithMeta offset limit s =
      .ok ⟨page (History.readAllEntries s) offset (min limit maxPageSize),
        (History.readAllEntries s).length,
        Spec.expectedHasMore offset limit (History.readAllEntries s).length⟩ := by
  have hlength := length_readAllEntries hs
  have hlen := len_le_max hs
  unfold getHistoryPageWithMeta
  rw [version, mapError_ok, ok_bind]
  dsimp only
  rw [hlength, Spec.expectedHasMore_eq hlen]
  by_cases hread : offset < History.len s ∧ min limit maxPageSize ≠ 0
  · have hmore : (if min limit maxPageSize = 0 then false
        else decide (min (saturatingAdd 32 offset (min limit maxPageSize)) (History.len s) <
          History.len s)) =
        (decide (0 < limit) && decide (offset + min limit maxPageSize < History.len s)) := by
      rw [if_neg hread.2, saturated_end hlen, decide_eq_true (show 0 < limit by omega),
        Bool.true_and]
      exact decide_eq_decide.mpr (by omega)
    have hpage := readPage hs hread.1 (min limit maxPageSize)
      (fun items => (.ok ⟨items, History.len s, if min limit maxPageSize = 0 then false
        else decide (min (saturatingAdd 32 offset (min limit maxPageSize)) (History.len s) <
          History.len s)⟩ : Trapping HistoryPage))
    exact (if_pos hread).trans (hpage.trans (by rw [hmore]))
  · have hmore : (if min limit maxPageSize = 0 then false
        else decide (min offset (History.len s) < History.len s)) =
        (decide (0 < limit) && decide (offset + min limit maxPageSize < History.len s)) := by
      by_cases hlimit : limit = 0
      · simp [hlimit]
      · have hpositive : min limit maxPageSize ≠ 0 := by
          simp only [maxPageSize]
          omega
        rw [if_neg hpositive, decide_eq_false (show ¬ min offset (History.len s) < _ by omega),
          decide_eq_false (show ¬ offset + min limit maxPageSize < _ by omega), Bool.and_false]
    rw [page_eq_nil (by omega), ← hmore]
    exact if_neg hread

end Sharded

/-! ## The single vector -/

section Vector

variable {history : List SLAResult}

/-- Indexing within the vector traps nowhere. -/
theorem mapM_range_eq_page {offset count : Nat} (h : offset + count ≤ history.length) :
    (List.range' offset count).mapM (fun i => orTrap history[i]?) =
      .ok (page history offset count) := by
  induction count generalizing offset with
  | zero => rfl
  | succ count ih =>
    have hget : history[offset]? = some history[offset] := List.getElem?_eq_getElem (by omega)
    rw [List.range'_succ, List.mapM_cons, hget, ih (by omega)]
    simp only [orTrap, okOr_some, ok_bind, page]
    rw [List.drop_eq_getElem_cons (show offset < history.length by omega), List.take_succ_cons]
    rfl

/-- The slice of the single vector is the same page. -/
theorem pageSlice_eq (hlen : history.length ≤ unsignedMax 32) (offset limit : Nat) :
    SingleVector.pageSlice history offset limit =
      .ok (min (if limit = 0 then offset else offset + min limit maxPageSize) history.length,
        page history offset (min limit maxPageSize)) := by
  unfold SingleVector.pageSlice
  dsimp only
  by_cases hread : offset < history.length ∧ min limit maxPageSize > 0
  · have hpage : (List.range' offset (min (offset + min limit maxPageSize) history.length -
        offset)).mapM (fun i => orTrap history[i]?) = .ok (page history offset
          (min (offset + min limit maxPageSize) history.length - offset)) :=
      mapM_range_eq_page (by omega)
    rw [if_pos hread, saturated_end hlen, hpage, ok_bind, page_clamp, if_neg (by omega)]
    rfl
  · have hend : min offset history.length =
        min (if limit = 0 then offset else offset + min limit maxPageSize) history.length := by
      by_cases hlimit : limit = 0
      · rw [if_pos hlimit]
      · simp only [maxPageSize] at hread
        rw [if_neg hlimit]
        omega
    rw [if_neg hread, page_eq_nil (by omega), hend]
    rfl

/-- The single vector pages as the sharded history does. -/
theorem singleVector_getHistoryPage_eq {s : Storage} (version : checkVersion s = .ok ())
    (hlen : (SingleVector.history s).length ≤ unsignedMax 32) (offset limit : Nat) :
    SingleVector.getHistoryPage offset limit s =
        .ok (page (SingleVector.history s) offset (min limit maxPageSize)) ∧
      SingleVector.getHistoryPageWithMeta offset limit s =
        .ok ⟨page (SingleVector.history s) offset (min limit maxPageSize),
          (SingleVector.history s).length,
          Spec.expectedHasMore offset limit (SingleVector.history s).length⟩ := by
  unfold SingleVector.getHistoryPage SingleVector.getHistoryPageWithMeta
  rw [version, mapError_ok, ok_bind, ok_bind]
  dsimp only
  rw [pageSlice_eq hlen, Spec.expectedHasMore_eq hlen]
  refine ⟨rfl, ?_⟩
  rw [ok_bind]
  refine congrArg (fun more => Except.ok (HistoryPage.mk _ _ more)) ?_
  by_cases hlimit : limit = 0
  · simp [hlimit]
  · simp only [if_neg hlimit, Nat.pos_of_ne_zero hlimit, decide_true, Bool.true_and]
    exact decide_eq_decide.mpr (by omega)

end Vector

/-! ## The mirror -/

section Mirror

variable {Entry : Type} {history : List Entry}

theorem slice_eq_page {offset stop : Nat} :
    TypeScript.slice history offset stop = page history offset (stop - offset) := by
  unfold TypeScript.slice page
  rw [Int.toNat_natCast, Int.toNat_natCast, List.drop_take]

/-- On 32-bit parameters, which are whole and not negative, the mirror selects the same page. -/
theorem mirror_getHistoryPage_eq (hlen : history.length ≤ unsignedMax 32) (offset limit : Nat) :
    (TypeScript.getHistoryPage history offset limit).entries =
        page history offset (min limit maxPageSize) ∧
      (TypeScript.getHistoryPage history offset limit).total = history.length ∧
      (TypeScript.getHistoryPage history offset limit).hasMore =
        Spec.expectedHasMore offset limit history.length := by
  have hoffset : max 0 ⌊(offset : ℚ)⌋ = (offset : Int) := by
    rw [Int.floor_natCast]
    omega
  have hlimit : min (maxPageSize : Int) (max 0 ⌊(limit : ℚ)⌋) =
      ((min limit maxPageSize : Nat) : Int) := by
    rw [Int.floor_natCast]
    omega
  have hstop : min ((offset : Int) + ((min limit maxPageSize : Nat) : Int)) history.length =
      ((min (offset + min limit maxPageSize) history.length : Nat) : Int) := by omega
  rw [Spec.expectedHasMore_eq hlen]
  unfold TypeScript.getHistoryPage
  dsimp only
  rw [hoffset, hlimit, hstop]
  refine ⟨?_, rfl, ?_⟩
  · by_cases hread : offset < min (offset + min limit maxPageSize) history.length
    · rw [if_pos (Int.ofNat_lt.mpr hread), slice_eq_page, page_clamp]
    · rw [if_neg (fun h => hread (Int.ofNat_lt.mp h)), page_eq_nil (by omega)]
  · have hpositive : decide ((limit : ℚ) > 0) = decide (0 < limit) :=
      decide_eq_decide.mpr Nat.cast_pos
    rw [hpositive]
    congr 1
    exact decide_eq_decide.mpr (by omega)

end Mirror

/-! ## Every reader -/

/-- What a consumer reads off a page with its metadata. -/
def readPageOf (limit : Nat) (s : Storage) (offset : Nat) : Option (List SLAResult × Bool) :=
  (getHistoryPageWithMeta offset limit s).toOption.map (fun p => (p.items, p.has_more))

/-- Walking the pages of the contract reads the whole history. -/
theorem walk_history {s : Storage} (hs : (History.shards s).Sound SLAResult.outage_id 32)
    (version : checkVersion s = .ok ()) {limit : Nat} (hlimit : 1 ≤ limit) :
    walk (readPageOf limit s) ((History.readAllEntries s).length + 1) 0 =
      some (History.readAllEntries s) := by
  have hlen : (History.readAllEntries s).length ≤ unsignedMax 32 :=
    (length_readAllEntries hs).trans_le (len_le_max hs)
  refine walk_pages (k := min limit maxPageSize) ?_ ?_ (Nat.zero_le _)
    (Nat.lt_succ_of_le (Nat.sub_le _ _))
  · simp only [maxPageSize]
    omega
  · intro offset _
    unfold readPageOf
    rw [getHistoryPageWithMeta_eq hs version, Spec.expectedHasMore_eq hlen,
      decide_eq_true (show 0 < limit by omega), Bool.true_and]
    rfl

/-- Pagination is exact and complete: on every history that satisfies the representation
invariant all readers select the same slice without a trap, and walking the pages reads the
history without gap or duplicate. -/
theorem pagination_exact {s : Storage} (hs : (History.shards s).Sound SLAResult.outage_id 32)
    (version : checkVersion s = .ok ()) (offset limit : Nat) :
    getHistoryPage offset limit s =
        .ok (((History.readAllEntries s).drop offset).take (min limit 200)) ∧
      getHistoryPageWithMeta offset limit s =
        .ok ⟨((History.readAllEntries s).drop offset).take (min limit 200),
          (History.readAllEntries s).length,
          Spec.expectedHasMore offset limit (History.readAllEntries s).length⟩ ∧
      (∃ stop, SingleVector.pageSlice (History.readAllEntries s) offset limit =
        .ok (stop, ((History.readAllEntries s).drop offset).take (min limit 200))) ∧
      (TypeScript.getHistoryPage (History.readAllEntries s) offset limit).entries =
        ((History.readAllEntries s).drop offset).take (min limit 200) ∧
      (TypeScript.getHistoryPage (History.readAllEntries s) offset limit).hasMore =
        Spec.expectedHasMore offset limit (History.readAllEntries s).length ∧
      (((History.readAllEntries s).drop offset).take (min limit 200)).length =
        Spec.expectedPageLen offset limit (History.readAllEntries s).length ∧
      (1 ≤ limit → walk (readPageOf limit s) ((History.readAllEntries s).length + 1) 0 =
        some (History.readAllEntries s)) := by
  have hlen : (History.readAllEntries s).length ≤ unsignedMax 32 :=
    (length_readAllEntries hs).trans_le (len_le_max hs)
  obtain ⟨hentries, -, hmore⟩ := mirror_getHistoryPage_eq hlen offset limit
  refine ⟨getHistoryPage_eq hs version offset limit,
    getHistoryPageWithMeta_eq hs version offset limit, ⟨_, pageSlice_eq hlen offset limit⟩,
    hentries, hmore, ?_, fun hlimit => walk_history hs version hlimit⟩
  rw [Spec.expectedPageLen, Spec.expectedPageEnd_eq hlen]
  refine (length_page _ offset (min limit 200)).trans ?_
  simp only [maxPageSize]
  omega

/-- A page past the first entry, and the walk by pages of one entry, over a history that evicted
its oldest entry. -/
theorem pagination_exact_busyRun :
    getHistoryPage 1 7 (after busyRun) =
        .ok (((History.readAllEntries (after busyRun)).drop 1).take 7) ∧
      walk (readPageOf 1 (after busyRun))
          ((History.readAllEntries (after busyRun)).length + 1) 0 =
        some (History.readAllEntries (after busyRun)) :=
  ⟨(pagination_exact (sound_after busyRun) (by rfl) 1 7).1,
    (pagination_exact (sound_after busyRun) (by rfl) 1 1).2.2.2.2.2.2 (by decide)⟩

end ApexChainx
