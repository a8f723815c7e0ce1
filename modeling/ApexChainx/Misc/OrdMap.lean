import Mathlib.Data.List.Induction
import Mathlib.Data.List.Lex
import Mathlib.Data.List.Pairwise
import Mathlib.Data.List.Sort
import Mathlib.Order.Lattice

/-!
# Ordered maps

A map kept as an entry list in strictly increasing key order, as the host keeps a `Map`: it is
iterated in key order, and equal contents are equal values. The order is a field of the
structure, so every operation hands back an ordered map.
-/

namespace Misc

/-- A finite map from `κ` to `ν`, iterated in increasing key order. -/
structure OrdMap (κ ν : Type) [LinearOrder κ] where
  entries : List (κ × ν)
  ordered : entries.Pairwise (fun a b => a.1 < b.1)

namespace OrdMap

variable {κ ν : Type} [LinearOrder κ]

/-- `Map::new`. -/
def empty : OrdMap κ ν := ⟨[], List.Pairwise.nil⟩

/-- Put an entry at its place in an ordered list, replacing one with the same key. -/
def place (k : κ) (v : ν) : List (κ × ν) → List (κ × ν)
  | [] => [(k, v)]
  | (k', v') :: rest =>
      if k < k' then (k, v) :: (k', v') :: rest
      else if k = k' then (k, v) :: rest
      else (k', v') :: place k v rest

theorem mem_place {k : κ} {v : ν} {l : List (κ × ν)} {a : κ × ν} (h : a ∈ place k v l) :
    a = (k, v) ∨ a ∈ l := by
  fun_induction place k v l with grind

theorem place_ordered (k : κ) (v : ν) {l : List (κ × ν)}
    (h : l.Pairwise (fun a b => a.1 < b.1)) : (place k v l).Pairwise (fun a b => a.1 < b.1) := by
  fun_induction place k v l with
  | case1 => simp
  | case2 k' v' rest hlt =>
    have hrest := (List.pairwise_cons.mp h).1
    refine List.pairwise_cons.mpr ⟨?_, h⟩
    intro b hb
    rcases List.mem_cons.mp hb with rfl | hb
    · exact hlt
    · exact hlt.trans (hrest b hb)
  | case3 v' rest _ =>
    obtain ⟨hrest, htail⟩ := List.pairwise_cons.mp h
    exact List.pairwise_cons.mpr ⟨hrest, htail⟩
  | case4 k' v' rest hlt hne ih =>
    obtain ⟨hrest, htail⟩ := List.pairwise_cons.mp h
    refine List.pairwise_cons.mpr ⟨?_, ih htail⟩
    intro b hb
    rcases mem_place hb with rfl | hb
    · exact lt_of_le_of_ne (not_lt.mp hlt) (Ne.symm hne)
    · exact hrest b hb

/-- `map.set(k, v)`. -/
def set (m : OrdMap κ ν) (k : κ) (v : ν) : OrdMap κ ν :=
  ⟨place k v m.entries, place_ordered k v m.ordered⟩

/-- `map.get(k)`. -/
def get (m : OrdMap κ ν) (k : κ) : Option ν := (m.entries.find? (·.1 = k)).map Prod.snd

/-- `map.contains_key(k)`. -/
def contains (m : OrdMap κ ν) (k : κ) : Bool := (m.get k).isSome

/-- `map.remove(k)`. -/
def remove (m : OrdMap κ ν) (k : κ) : OrdMap κ ν :=
  ⟨m.entries.filter (fun e => e.1 ≠ k), m.ordered.filter _⟩

/-- `map.len()`. -/
def len (m : OrdMap κ ν) : Nat := m.entries.length

@[simp] theorem get_empty (k : κ) : (empty : OrdMap κ ν).get k = none := rfl

theorem find_place_same (k : κ) (v : ν) (l : List (κ × ν)) :
    (place k v l).find? (·.1 = k) = some (k, v) := by
  fun_induction place k v l with
  | case1 => simp
  | case2 => simp
  | case3 => simp
  | case4 k' v' rest _ hne ih => simp [Ne.symm hne, ih]

theorem find_place_other {k k' : κ} (h : k' ≠ k) (v : ν) (l : List (κ × ν)) :
    (place k v l).find? (·.1 = k') = l.find? (·.1 = k') := by
  fun_induction place k v l with
  | case1 => simp [Ne.symm h]
  | case2 => simp [Ne.symm h]
  | case3 => simp [Ne.symm h]
  | case4 k₁ v₁ rest _ _ ih => by_cases e : k₁ = k' <;> simp [e, ih]

@[simp] theorem get_set_same (m : OrdMap κ ν) (k : κ) (v : ν) : (m.set k v).get k = some v := by
  simp [get, set, find_place_same]

@[simp] theorem get_set_other (m : OrdMap κ ν) {k k' : κ} (h : k' ≠ k) (v : ν) :
    (m.set k v).get k' = m.get k' := by
  simp [get, set, find_place_other h]

theorem get_set (m : OrdMap κ ν) (k k' : κ) (v : ν) :
    (m.set k v).get k' = if k' = k then some v else m.get k' := by
  by_cases h : k' = k
  · subst h; simp
  · simp [h]

@[simp] theorem contains_empty (k : κ) : (empty : OrdMap κ ν).contains k = false := rfl

theorem contains_set (m : OrdMap κ ν) (k k' : κ) (v : ν) :
    (m.set k v).contains k' = true ↔ k' = k ∨ m.contains k' = true := by
  by_cases h : k' = k <;> simp [contains, h]

@[simp] theorem get_remove_same (m : OrdMap κ ν) (k : κ) : (m.remove k).get k = none := by
  simp only [get, remove, Option.map_eq_none_iff, List.find?_eq_none, List.mem_filter]
  rintro e ⟨-, he⟩
  simpa using he

@[simp] theorem get_remove_other (m : OrdMap κ ν) {k k' : κ} (h : k' ≠ k) :
    (m.remove k).get k' = m.get k' := by
  simp only [get, remove, List.find?_filter]
  congr 2
  funext e
  by_cases he : e.1 = k' <;> simp [he, h]

/-- What a map holds comes from one of its entries. -/
theorem mem_of_get {m : OrdMap κ ν} {k : κ} {v : ν} (h : m.get k = some v) :
    (k, v) ∈ m.entries := by
  simp only [get, Option.map_eq_some_iff] at h
  obtain ⟨⟨k', v'⟩, hf, rfl⟩ := h
  have hk := List.find?_some hf
  simp only [decide_eq_true_eq] at hk
  subst hk
  exact List.mem_of_find?_eq_some hf

/-- Every entry of a map is what the map holds at its key. -/
theorem get_of_mem {m : OrdMap κ ν} {k : κ} {v : ν} (h : (k, v) ∈ m.entries) :
    m.get k = some v := by
  obtain ⟨l, hl⟩ := m
  simp only [get] at h ⊢
  induction l with
  | nil => cases h
  | cons e rest ih =>
    obtain ⟨hlt, hrest⟩ := List.pairwise_cons.mp hl
    rcases List.mem_cons.mp h with rfl | hmem
    · simp
    · have hne : e.1 ≠ k := ne_of_lt (hlt _ hmem)
      simpa [hne] using ih hrest hmem

theorem entries_injective : Function.Injective (entries : OrdMap κ ν → List (κ × ν)) := by
  rintro ⟨entries, ordered⟩ ⟨entries', ordered'⟩ h
  congr

/-- Maps that hold the same at every key are equal. -/
theorem ext_get {m m' : OrdMap κ ν} (h : ∀ k, m.get k = m'.get k) : m = m' := by
  have : Std.Irrefl fun a b : κ × ν => a.1 < b.1 := ⟨fun a => lt_irrefl a.1⟩
  have : Std.Antisymm fun a b : κ × ν => a.1 < b.1 := ⟨fun _ _ hab hba => (lt_asymm hab hba).elim⟩
  have hmem : ∀ e : κ × ν, e ∈ m.entries ↔ e ∈ m'.entries := by
    rintro ⟨k, v⟩
    constructor
    · intro he
      exact mem_of_get ((h k).symm.trans (get_of_mem he))
    · intro he
      exact mem_of_get ((h k).trans (get_of_mem he))
  exact entries_injective (m.ordered.eq_of_mem_iff m'.ordered hmem)

/-- Writing what a key holds changes nothing. -/
theorem set_eq_self {m : OrdMap κ ν} {k : κ} {v : ν} (h : m.get k = some v) : m.set k v = m := by
  refine ext_get fun j => ?_
  rw [get_set]
  split
  · rename_i e
    rw [e, h]
  · rfl

/-- The keys of a map, in order. -/
def keys (m : OrdMap κ ν) : List κ := m.entries.map Prod.fst

theorem keys_ordered (m : OrdMap κ ν) : m.keys.Pairwise (· < ·) :=
  List.pairwise_map.mpr m.ordered

theorem mem_keys {m : OrdMap κ ν} {k : κ} : k ∈ m.keys ↔ ∃ v, m.get k = some v := by
  constructor
  · intro h
    obtain ⟨⟨k', v⟩, hm, rfl⟩ := List.mem_map.mp h
    exact ⟨v, get_of_mem hm⟩
  · rintro ⟨v, hv⟩
    exact List.mem_map.mpr ⟨(k, v), mem_of_get hv, rfl⟩

/-- The map that a list of writes leaves. -/
def ofWrites (writes : List (κ × ν)) : OrdMap κ ν :=
  writes.foldl (fun m e => m.set e.1 e.2) empty

theorem ofWrites_concat (writes : List (κ × ν)) (e : κ × ν) :
    ofWrites (writes ++ [e]) = (ofWrites writes).set e.1 e.2 := List.foldl_concat ..

/-- What the map holds was written. -/
theorem mem_of_get_ofWrites {writes : List (κ × ν)} {k : κ} {v : ν}
    (h : (ofWrites writes).get k = some v) : (k, v) ∈ writes := by
  induction writes using List.reverseRecOn with
  | nil => cases h
  | append_singleton writes e ih =>
    rw [ofWrites_concat, get_set] at h
    split at h
    · rename_i hk
      obtain rfl := Option.some.inj h
      exact List.mem_append_right _ (by simp [hk])
    · exact List.mem_append_left _ (ih h)

/-- A key that was written is held. -/
theorem exists_get_ofWrites {writes : List (κ × ν)} {k : κ} {v : ν} (h : (k, v) ∈ writes) :
    ∃ v', (ofWrites writes).get k = some v' := by
  induction writes using List.reverseRecOn with
  | nil => cases h
  | append_singleton writes e ih =>
    rw [ofWrites_concat, get_set]
    split
    · exact ⟨_, rfl⟩
    · rename_i hk
      rcases List.mem_append.mp h with hold | hnew
      · exact ih hold
      · exact absurd (congrArg Prod.fst (List.mem_singleton.mp hnew)) hk

/-- When no key is written with two values, what the map holds is what was written. -/
theorem get_ofWrites {writes : List (κ × ν)}
    (hone : ∀ a ∈ writes, ∀ b ∈ writes, a.1 = b.1 → a.2 = b.2) {k : κ} {v : ν} :
    (ofWrites writes).get k = some v ↔ (k, v) ∈ writes := by
  constructor
  · exact mem_of_get_ofWrites
  · intro hmem
    obtain ⟨v', hget⟩ := exists_get_ofWrites hmem
    rw [hget]
    exact congrArg some (hone _ (mem_of_get_ofWrites hget) _ hmem rfl)

@[simp] theorem length_keys (m : OrdMap κ ν) : m.keys.length = m.len := List.length_map _

end OrdMap

end Misc
