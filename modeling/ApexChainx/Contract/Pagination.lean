import Mathlib.Data.Rat.Floor
import ApexChainx.Contract.SingleVector
import ApexChainx.Contract.Spec

/-!
# Pagination

The paginated reads of the history: `get_history_page` and `get_history_page_with_meta` of
`lib.rs` over the sharded history, those of `history.rs` over the single vector, the
restatement in `spec.rs`, and the mirror in `ts/historyPagination.ts`. Index arithmetic that the
source leaves unchecked traps.
-/

namespace ApexChainx

open Host Misc

/-- `MAX_PAGE_SIZE`. -/
def maxPageSize : Nat := 200

/-- `HistoryPage`. -/
structure HistoryPage where
  items : List SLAResult
  total : Nat
  has_more : Bool
  deriving DecidableEq, Repr

/-- `get_history_page` of `lib.rs`. -/
def getHistoryPage (offset limit : Nat) (s : Storage) : Trapping (List SLAResult) := do
  (checkVersion s).mapError .err
  let (head, tail) := (History.head s, History.tail s)
  let total := tail - head
  let limit := min limit maxPageSize
  if offset ≥ total ∨ limit = 0 then
    return []
  let end_rel := min (saturatingAdd 32 offset limit) total
  let start ← orTrap (checkedAdd 32 head offset)
  let count ← orTrap (panickingSub end_rel offset)
  return History.readRange s start count

/-- `get_history_page_with_meta` of `lib.rs`. -/
def getHistoryPageWithMeta (offset limit : Nat) (s : Storage) : Trapping HistoryPage := do
  (checkVersion s).mapError .err
  let (head, tail) := (History.head s, History.tail s)
  let total := tail - head
  let limit := min limit maxPageSize
  let (end_rel, items) ←
    if offset < total ∧ limit ≠ 0 then do
      let end_rel := min (saturatingAdd 32 offset limit) total
      let start ← orTrap (checkedAdd 32 head offset)
      let count ← orTrap (panickingSub end_rel offset)
      pure (end_rel, History.readRange s start count)
    else pure (min offset total, [])
  let has_more := if limit = 0 then false else decide (end_rel < total)
  return ⟨items, total, has_more⟩

/-! ## The single vector -/

namespace SingleVector

/-- `page_slice`; `history.get(i).unwrap()` traps past the end. -/
def pageSlice (history : List SLAResult) (offset limit : Nat) :
    Trapping (Nat × List SLAResult) := do
  let limit := min limit maxPageSize
  let len := history.length
  if offset < len ∧ limit > 0 then
    let stop := min (saturatingAdd 32 offset limit) len
    let page ← (List.range' offset (stop - offset)).mapM fun i => orTrap history[i]?
    return (stop, page)
  else
    return (min offset len, [])

/-- `get_history_page` of `history.rs`. -/
def getHistoryPage (offset limit : Nat) (s : Storage) : Trapping (List SLAResult) := do
  (checkVersion s).mapError .err
  let (_, page) ← pageSlice (history s) offset limit
  return page

/-- `get_history_page_with_meta` of `history.rs`. -/
def getHistoryPageWithMeta (offset limit : Nat) (s : Storage) : Trapping HistoryPage := do
  (checkVersion s).mapError .err
  let history := history s
  let total := history.length
  let (stop, items) ← pageSlice history offset limit
  let has_more := if limit = 0 then false else decide (stop < total)
  return ⟨items, total, has_more⟩

end SingleVector

/-! ## The specification -/

namespace Spec

/-- `expected_page_end`. -/
def expectedPageEnd (offset limit len : Nat) : Nat :=
  let limit := if limit > maxPageSize then maxPageSize else limit
  let stop := saturatingAdd 32 offset limit
  if stop > len then len else stop

/-- `expected_page_len`. -/
def expectedPageLen (offset limit len : Nat) : Nat := expectedPageEnd offset limit len - offset

/-- `expected_has_more`. -/
def expectedHasMore (offset limit len : Nat) : Bool :=
  if limit = 0 then false else decide (expectedPageEnd offset limit len < len)

end Spec

/-! ## The mirror -/

namespace TypeScript

/-- `HistoryPage` of `historyPagination.ts`, over the entries of the mirror. -/
structure HistoryPage (Entry : Type) where
  entries : List Entry
  offset : Int
  total : Int
  hasMore : Bool

/-- `history.slice(start, stop)` for a start that is not negative. -/
def slice {Entry : Type} (history : List Entry) (start stop : Int) : List Entry :=
  (history.take stop.toNat).drop start.toNat

/-- `getHistoryPage`; its numbers are rationals. -/
def getHistoryPage {Entry : Type} (history : List Entry) (offset limit : ℚ) :
    HistoryPage Entry :=
  let total : Int := history.length
  let safeOffset := max 0 ⌊offset⌋
  let safeLimit := min (maxPageSize : Int) (max 0 ⌊limit⌋)
  let stop := min (safeOffset + safeLimit) total
  let entries := if safeOffset < stop then slice history safeOffset stop else []
  ⟨entries, safeOffset, total, decide (limit > 0) && decide (stop < total)⟩

end TypeScript

end ApexChainx
