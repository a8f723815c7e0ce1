import Mathlib.Logic.Function.Basic
import ApexChainx.Host.Run

/-!
# Groups of deployments

Several deployments of one contract, each with a storage of its own. A run of the group makes the
calls of its members in any order. A call only reaches the member it names, so what a member
stores after the run is what its own calls leave, whatever the others did in between
(`groupFinal_eq`).
-/

namespace Host

variable {ι K A C E ε R : Type} {V : K → Type} [DecidableEq ι]

/-- The storages of a group after a run, each call made at the member it names. -/
def groupFinal (exec : C → Prog A V E ε R) (stores : ι → Store V) (txs : List (ι × Tx A C)) :
    ι → Store V :=
  txs.foldl (fun stores t =>
    Function.update stores t.1 (invoke exec t.2 (stores t.1)).storage) stores

/-- The calls of a run that are made at one member, in order. -/
def callsOf (i : ι) (txs : List (ι × Tx A C)) : List (Tx A C) :=
  (txs.filter (·.1 = i)).map Prod.snd

section Calls

variable (i : ι) (txs later : List (ι × Tx A C))

@[simp] theorem callsOf_nil : callsOf i ([] : List (ι × Tx A C)) = [] := rfl

@[simp] theorem callsOf_cons_self (tx : Tx A C) :
    callsOf i ((i, tx) :: txs) = tx :: callsOf i txs := by
  simp [callsOf]

@[simp] theorem callsOf_cons_other {j : ι} (h : j ≠ i) (tx : Tx A C) :
    callsOf i ((j, tx) :: txs) = callsOf i txs := by
  simp [callsOf, h]

theorem callsOf_append : callsOf i (txs ++ later) = callsOf i txs ++ callsOf i later := by
  simp [callsOf]

/-- A call made at the member it names. -/
theorem mem_callsOf {tx : Tx A C} : tx ∈ callsOf i txs ↔ (i, tx) ∈ txs := by
  simp [callsOf]

end Calls

variable {exec : C → Prog A V E ε R}

/-- A member ends where its own calls lead. -/
theorem groupFinal_eq (stores : ι → Store V) (txs : List (ι × Tx A C)) (i : ι) :
    groupFinal exec stores txs i = final exec (stores i) (callsOf i txs) := by
  induction txs generalizing stores with
  | nil => rfl
  | cons t txs ih =>
    obtain ⟨j, tx⟩ := t
    have hrest : groupFinal exec stores ((j, tx) :: txs) i =
        final exec (Function.update stores j (invoke exec tx (stores j)).storage i)
          (callsOf i txs) := ih _
    rw [hrest]
    by_cases hj : j = i
    · subst hj
      rw [Function.update_self, callsOf_cons_self, final_cons]
    · rw [Function.update_of_ne (Ne.symm hj), callsOf_cons_other i txs hj]

end Host
