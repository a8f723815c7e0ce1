import ApexChainx.Contract.Types

/-!
# The off-chain history helpers

The mirrors of the per-outage lookups (`ts/historyByOutage.ts`) and of the age prune
(`ts/historyPruneByAge.ts`). They select entries by their outage and by their ledger time only, so
they are stated over any type of entry that has both; a ledger time is a number that is represented
exactly.
-/

namespace ApexChainx.TypeScript

/-- `OutageQueryResult`. -/
structure OutageQueryResult (Entry : Type) where
  outageId : Symbol
  entries : List Entry
  count : Nat
  deriving DecidableEq, Repr

/-- `PruneResult`. -/
structure PruneResult (Entry : Type) where
  kept : List Entry
  pruned : Nat
  deriving DecidableEq, Repr

section Lookup

variable {Entry : Type} (outageIdOf : Entry → Symbol)

/-- `getHistoryByOutage`. -/
def getHistoryByOutage (history : List Entry) (outageId : Symbol) : OutageQueryResult Entry :=
  let entries := history.filter fun e => outageIdOf e = outageId
  ⟨outageId, entries, entries.length⟩

/-- `getLatestByOutage`. -/
def getLatestByOutage (history : List Entry) (outageId : Symbol) : Option Entry :=
  history.foldl (fun latest entry => if outageIdOf entry = outageId then some entry else latest)
    none

end Lookup

section Prune

variable {Entry : Type} (recordedAt : Entry → Nat)

/-- `pruneByAge`. -/
def pruneByAge (history : List Entry) (cutoffTimestamp : Int) : PruneResult Entry :=
  let kept := history.filter fun e => (recordedAt e : Int) ≥ cutoffTimestamp
  ⟨kept, history.length - kept.length⟩

/-- `Math.max(...history.map((e) => e.recordedAt))`, for a history that is not empty. -/
def newest (history : List Entry) : Nat := (history.map recordedAt).foldl max 0

/-- `pruneByWindow`. -/
def pruneByWindow (history : List Entry) (windowSize : Int) : PruneResult Entry :=
  if history.length = 0 then ⟨[], 0⟩
  else pruneByAge recordedAt history (newest recordedAt history - windowSize)

/-- `pruneByMinAge`. -/
def pruneByMinAge (history : List Entry) (now minAgeSeconds : Int) : PruneResult Entry :=
  let cutoff := if now > minAgeSeconds then now - minAgeSeconds else 0
  let kept := history.filter fun e => (recordedAt e : Int) ≥ cutoff
  ⟨kept, history.length - kept.length⟩

end Prune

end ApexChainx.TypeScript
