import Mathlib.Data.List.Basic

/-!
# Pages of a list

Offset pagination of a list, and the reader that walks it page by page: it advances by the
number of entries it was given for as long as it is told that more follow.
-/

namespace Misc

variable {α : Type}

/-- The page of at most `limit` entries from `offset` on. -/
def page (l : List α) (offset limit : Nat) : List α := (l.drop offset).take limit

theorem length_page (l : List α) (offset limit : Nat) :
    (page l offset limit).length = min limit (l.length - offset) := by
  simp [page]

theorem page_eq_nil {l : List α} {offset limit : Nat} (h : l.length ≤ offset ∨ limit = 0) :
    page l offset limit = [] := by
  rcases h with h | rfl
  · rw [page, List.drop_eq_nil_of_le h, List.take_nil]
  · rfl

/-- A page cut at the end of the list is the same page. -/
theorem page_clamp (l : List α) (offset limit : Nat) :
    page l offset (min (offset + limit) l.length - offset) = page l offset limit := by
  unfold page
  rw [List.take_eq_take_iff, List.length_drop]
  omega

/-- A page, followed by what comes after it. -/
theorem page_append_drop (l : List α) (offset limit : Nat) :
    page l offset limit ++ l.drop (offset + (page l offset limit).length) = l.drop offset := by
  rw [← List.drop_drop]
  exact List.prefix_iff_eq_append.mp (List.take_prefix limit (l.drop offset))

section FilterMap

variable {β : Type} {f : β → Option α} {l : List β}

/-- Where nothing is filtered out, pages are taken before or after the map. -/
theorem filterMap_page (h : ∀ b ∈ l, (f b).isSome) (offset limit : Nat) :
    page (l.filterMap f) offset limit = (page l offset limit).filterMap f := by
  have hmap : ∀ l : List β, (∀ b ∈ l, (f b).isSome) → (l.filterMap f).map some = l.map f := by
    intro l hl
    induction l with
    | nil => rfl
    | cons b rest ih =>
      obtain ⟨a, ha⟩ := Option.isSome_iff_exists.mp (hl b List.mem_cons_self)
      simp [ha, ih (fun b hb => hl b (List.mem_cons_of_mem _ hb))]
  have hpage : ∀ b ∈ page l offset limit, (f b).isSome := fun b hb =>
    h b (List.mem_of_mem_drop (List.mem_of_mem_take hb))
  refine List.map_injective_iff.mpr (fun _ _ => Option.some.inj) ?_
  rw [hmap _ hpage, page, page, List.map_take, List.map_drop, hmap l h, List.map_take,
    List.map_drop]

theorem page_range' {start len offset limit : Nat} (h : offset + limit ≤ len) :
    page (List.range' start len) offset limit = List.range' (start + offset) limit := by
  rw [page, List.drop_range', List.take_range'_of_length_ge (by omega), Nat.mul_one]

end FilterMap

/-- Read pages from `offset` on until one says that nothing follows; `none` when a read fails or
the fuel runs out. -/
def walk (read : Nat → Option (List α × Bool)) : Nat → Nat → Option (List α)
  | 0, _ => none
  | fuel + 1, offset =>
    match read offset with
    | none => none
    | some (items, more) =>
      if more then (walk read fuel (offset + items.length)).map (items ++ ·) else some items

/-- Walking the pages of a list reads its rest, each entry once, in at most one page more than
there are entries. -/
theorem walk_pages {l : List α} {k : Nat} {read : Nat → Option (List α × Bool)}
    (hlimit : 1 ≤ k)
    (hread : ∀ offset ≤ l.length,
      read offset = some (page l offset k, decide (offset + k < l.length)))
    {fuel offset : Nat} (hoffset : offset ≤ l.length) (hfuel : l.length - offset < fuel) :
    walk read fuel offset = some (l.drop offset) := by
  induction fuel generalizing offset with
  | zero => omega
  | succ fuel ih =>
    have hlength := length_page l offset k
    simp only [walk, hread offset hoffset]
    by_cases hmore : offset + k < l.length
    · rw [if_pos (decide_eq_true hmore), ih (by omega) (by omega), Option.map_some,
        page_append_drop]
    · rw [if_neg (by simpa using hmore)]
      unfold page
      rw [List.take_of_length_le (by rw [List.length_drop]; omega)]

end Misc
