import ApexChainx.Contract.Storage
import ApexChainx.Misc.Machine

/-!
# Sharded history

The version-3 history of `history.rs`: each entry under its own key, an index list per outage,
the head and tail counters that delimit the retained range, and the cached length. The
counters are `u32`, so `+= 1` wraps.
-/

namespace ApexChainx.History

open Host Misc

/-! ## Reads -/

/-- `head`. -/
def head (s : Storage) : Nat := (s .histHead).getD 0

/-- `tail`. -/
def tail (s : Storage) : Nat := (s .histTail).getD 0

/-- `len`. -/
def len (s : Storage) : Nat := tail s - head s

/-- `read_entry`. -/
def readEntry (s : Storage) (index : Nat) : Option SLAResult := s (.histEntry index)

/-- `read_range`: the entries present at `start..start.saturating_add(count)`. -/
def readRange (s : Storage) (start count : Nat) : List SLAResult :=
  (List.range' start (saturatingAdd 32 start count - start)).filterMap (readEntry s)

/-- `read_all_entries`. -/
def readAllEntries (s : Storage) : List SLAResult := readRange s (head s) (len s)

/-- `entry_indices_for_outage`. -/
def entryIndicesForOutage (s : Storage) (outage_id : Symbol) : List Nat :=
  (s (.histIndex outage_id)).getD []

/-- `entries_for_outage`. -/
def entriesForOutage (s : Storage) (outage_id : Symbol) : List SLAResult :=
  (entryIndicesForOutage s outage_id).filterMap (readEntry s)

/-- `latest_for_outage`. -/
def latestForOutage (s : Storage) (outage_id : Symbol) : Option SLAResult :=
  (entryIndicesForOutage s outage_id).getLast?.bind (readEntry s)

/-! ## Append -/

/-- Drop the entry at `h`, and its index from the list of the outage that owns it: the
eviction branch of `append_entry`. -/
def dropOldest (h : Nat) : Contract Unit := do
  let dropped ← Contract.get (.histEntry h)
  Contract.remove (.histEntry h)
  Prog.whenSome dropped fun d => do
    let dx ← Contract.ask (entryIndicesForOutage · d.outage_id)
    Contract.set (.histIndex d.outage_id) (dx.filter (· ≠ h))

/-- `append_entry`. -/
def appendEntry (entry : SLAResult) (retention_limit : Nat) (current_indices : List Nat) :
    Contract Unit := do
  let h ← Contract.ask head
  let t ← Contract.ask tail
  Contract.set (.histEntry t) entry
  Contract.set (.histIndex entry.outage_id) (current_indices ++ [t])
  let t := wrap 32 (t + 1)
  Contract.set .histTail t
  if t - h > retention_limit then do
    dropOldest h
    let h := wrap 32 (h + 1)
    Contract.set .histHead h
    Contract.set .historyLen (t - h)
  else
    Contract.set .historyLen (t - h)

/-! ## Prune -/

/-- Add an outage to a list of outages unless it is there already. -/
def noteOutage (outages : List Symbol) (outage_id : Symbol) : List Symbol :=
  if outage_id ∈ outages then outages else outages ++ [outage_id]

/-- Note the owner of an entry that may be missing. -/
def noteOwner (outages : List Symbol) : Option SLAResult → List Symbol
  | some entry => noteOutage outages entry.outage_id
  | none => outages

/-- The body of the first loop of `prune_oldest`. -/
def dropEntry (touched_outages : List Symbol) (i : Nat) : Contract (List Symbol) := do
  let dropped ← Contract.get (.histEntry i)
  Contract.remove (.histEntry i)
  pure (noteOwner touched_outages dropped)

/-- The body of the second loop of `prune_oldest`. -/
def keepIndicesFrom (kept_from : Nat) (outage : Symbol) : Contract Unit := do
  let idx ← Contract.ask (entryIndicesForOutage · outage)
  Contract.set (.histIndex outage) (idx.filter (kept_from ≤ ·))

/-- `prune_oldest`. -/
def pruneOldest (keep_count : Nat) : Contract Nat := do
  let h ← Contract.ask head
  let t ← Contract.ask tail
  if keep_count ≥ t - h then pure 0
  else do
    let kept_from := t - keep_count
    let touched_outages ← (List.range' h (kept_from - h)).foldlM dropEntry []
    touched_outages.forM (keepIndicesFrom kept_from)
    Contract.set .histHead kept_from
    Contract.set .historyLen keep_count
    pure (kept_from - h)

/-! ## Rebuild -/

/-- The body of the first loop of `rebuild_history`. -/
def clearEntry (seen_outages : List Symbol) (i : Nat) : Contract (List Symbol) := do
  let entry ← Contract.get (.histEntry i)
  Prog.whenSome entry (fun _ => Contract.remove (.histEntry i))
  pure (noteOwner seen_outages entry)

/-- The body of the third loop of `rebuild_history`; the state is the index map under
construction and the next index. -/
def placeEntry (acc : OrdMap Symbol (List Nat) × Nat) (entry : SLAResult) :
    Contract (OrdMap Symbol (List Nat) × Nat) := do
  let (outage_indexes, cur) := acc
  Contract.set (.histEntry cur) entry
  let idx := (outage_indexes.get entry.outage_id).getD []
  pure (outage_indexes.set entry.outage_id (idx ++ [cur]), wrap 32 (cur + 1))

/-- `rebuild_history`. -/
def rebuildHistory (entries : List SLAResult) : Contract Unit := do
  let h ← Contract.ask head
  let t ← Contract.ask tail
  let seen_outages ← (List.range' h (t - h)).foldlM clearEntry []
  seen_outages.forM (fun outage => Contract.remove (.histIndex outage))
  let (outage_indexes, _) ← entries.foldlM placeEntry (OrdMap.empty, h)
  outage_indexes.entries.forM (fun e => Contract.set (.histIndex e.1) e.2)
  let new_tail := saturatingAdd 32 h entries.length
  Contract.set .histHead h
  Contract.set .histTail new_tail
  Contract.set .historyLen entries.length

/-- `migrate_to_sharded`. -/
def migrateToSharded (legacy : List SLAResult) : Contract Unit := rebuildHistory legacy

end ApexChainx.History
