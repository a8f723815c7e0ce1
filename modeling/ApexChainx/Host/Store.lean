import Mathlib.Data.Set.Basic

/-!
# Typed instance storage

A contract's instance storage maps each key to at most one value, and the key fixes the type
of the value it holds. `Store V` is that map for a key type `K` and a family `V : K → Type`;
a key that was never written, or was removed, reads `none`.
-/

namespace Host

variable {K : Type} {V : K → Type}

/-- Instance storage over the keys `K`, where key `k` holds a value of type `V k`. -/
def Store (V : K → Type) := (k : K) → Option (V k)

namespace Store

/-- The storage of a contract that was never called. -/
def empty : Store V := fun _ => none

@[simp] theorem empty_apply (k : K) : (empty : Store V) k = none := rfl

@[ext] theorem ext {s s' : Store V} (h : ∀ k, s k = s' k) : s = s' := funext h

section Update

variable [DecidableEq K]

/-- `storage().instance().set(k, v)`. -/
def set (s : Store V) (k : K) (v : V k) : Store V :=
  fun j => if h : j = k then some (h ▸ v) else s j

/-- `storage().instance().remove(k)`. -/
def remove (s : Store V) (k : K) : Store V :=
  fun j => if j = k then none else s j

@[simp] theorem set_same (s : Store V) (k : K) (v : V k) : s.set k v k = some v := by
  simp [set]

@[simp] theorem set_other (s : Store V) {k k' : K} (v : V k) (h : k' ≠ k) :
    s.set k v k' = s k' := by
  simp [set, h]

/-- Writing what a key holds changes nothing. -/
theorem set_eq_self {s : Store V} {k : K} {v : V k} (h : s k = some v) : s.set k v = s := by
  ext1 j
  by_cases e : j = k
  · subst e; simp [h]
  · simp [e]

@[simp] theorem remove_same (s : Store V) (k : K) : s.remove k k = none := by
  simp [remove]

@[simp] theorem remove_other (s : Store V) {k k' : K} (h : k' ≠ k) :
    s.remove k k' = s k' := by
  simp [remove, h]

end Update

/-- The two storages hold the same values at every key of `S`. -/
def Agree (S : Set K) (s s' : Store V) : Prop := ∀ k ∈ S, s k = s' k

theorem Agree.refl (S : Set K) (s : Store V) : Agree S s s := fun _ _ => rfl

section Update

variable [DecidableEq K]

theorem Agree.set {S : Set K} {s s' : Store V} (h : Agree S s s') (k : K) (v : V k) :
    Agree S (s.set k v) (s'.set k v) := by
  intro j hj
  by_cases e : j = k
  · subst e; simp
  · simp [e, h j hj]

theorem Agree.remove {S : Set K} {s s' : Store V} (h : Agree S s s') (k : K) :
    Agree S (s.remove k) (s'.remove k) := by
  intro j hj
  by_cases e : j = k
  · subst e; simp
  · simp [e, h j hj]

end Update

end Store

end Host
