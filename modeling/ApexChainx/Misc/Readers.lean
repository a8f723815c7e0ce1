import ApexChainx.Misc.Pages

/-!
# Paging through a list that moves

A log grows at its end, and a list keeps an end of it: between two reads entries are added behind
what was kept and lost in front of it. A reader that pages through the kept list by offset reads no
entry twice, and passes over exactly as many as are lost on the way (`read_sublist`).
-/

namespace Misc

variable {α : Type}

/-- A log, and the end of it that is kept. -/
structure Tailed (α : Type) where
  log : List α
  kept : List α
  suffix : kept <:+ log

namespace Tailed

/-- The number of entries that are not kept. -/
def lost (v : Tailed α) : Nat := v.log.length - v.kept.length

/-- Entries are added at the end of the log, and lost at the front of what is kept. -/
structure Later (v w : Tailed α) : Prop where
  log : v.log <+: w.log
  lost : v.lost ≤ w.lost

theorem kept_eq (v : Tailed α) : v.kept = v.log.drop v.lost :=
  List.suffix_iff_eq_drop.mp v.suffix

theorem Later.refl (v : Tailed α) : v.Later v := ⟨List.prefix_rfl, Nat.le_refl _⟩

theorem Later.trans {u v w : Tailed α} (h : u.Later v) (h' : v.Later w) : u.Later w :=
  ⟨h.log.trans h'.log, Nat.le_trans h.lost h'.lost⟩

/-- The pages read one after the other, each from the kept list of its moment, by a reader that
advances by the number of entries it was given. -/
def read : List (Tailed α × Nat) → Nat → List (List α)
  | [], _ => []
  | (v, limit) :: rest, offset =>
    page v.kept offset limit :: read rest (offset + (page v.kept offset limit).length)

/-- The moments come one after the other, from `v` on and up to `w`. -/
inductive Moments : Tailed α → List (Tailed α × Nat) → Tailed α → Prop
  | nil {v} : Moments v [] v
  | cons {u v w limit rest} (later : u.Later v) (moments : Moments v rest w) :
      Moments u ((v, limit) :: rest) w

theorem Moments.later {v w : Tailed α} {moments : List (Tailed α × Nat)}
    (h : Moments v moments w) : v.Later w := by
  induction h with
  | nil => exact .refl _
  | cons later _ ih => exact later.trans ih

/-- A page of what is kept is the beginning of what any later log holds from there on. -/
theorem page_append_later {v w : Tailed α} (h : v.Later w) (offset limit : Nat) :
    page v.kept offset limit ++
        w.log.drop (v.lost + offset + (page v.kept offset limit).length) =
      w.log.drop (v.lost + offset) := by
  obtain ⟨added, hadded⟩ := h.log
  have hlost : v.lost + v.kept.length = v.log.length := by
    have := v.suffix.length_le
    simp only [lost]
    omega
  have hpage : page v.kept offset limit <+: v.log.drop (v.lost + offset) := by
    rw [page, v.kept_eq, List.drop_drop]
    exact List.take_prefix _ _
  have hlog : v.log.drop (v.lost + offset) <+: w.log.drop (v.lost + offset) := by
    rw [← hadded, List.drop_append]
    exact List.prefix_append _ _
  rw [← List.drop_drop]
  exact (List.prefix_iff_eq_append.mp (hpage.trans hlog))

/-- The reader reads entries of the log in order, each at most once, and passes over as many as
are lost on the way. -/
theorem read_sublist {v w : Tailed α} {moments : List (Tailed α × Nat)}
    (h : Moments v moments w) (offset : Nat) :
    (read moments offset).flatten.Sublist
      ((w.log.drop (v.lost + offset)).take
        (w.lost - v.lost + (read moments offset).flatten.length)) := by
  induction h generalizing offset with
  | nil => simp [read]
  | @cons u v w limit rest later moments ih =>
    have hlater := later.lost
    have hmoments := moments.later.lost
    have hrest := ih (offset + (page v.kept offset limit).length)
    have hpage := page_append_later moments.later offset limit
    rw [← Nat.add_assoc] at hrest
    simp only [read, List.flatten_cons, List.length_append]
    generalize page v.kept offset limit = p at hrest hpage
    generalize (read rest (offset + p.length)).flatten = items at hrest
    -- the page and what follows it, from where the reader stands at `v`
    have hfrom : (p ++ items).Sublist ((w.log.drop (v.lost + offset)).take
        (p.length + (w.lost - v.lost + items.length))) := by
      rw [← hpage, List.take_length_add_append]
      exact hrest.append_left p
    -- in front of it are the entries lost since `u`
    have hskip : v.lost + offset = u.lost + offset + (v.lost - u.lost) := by omega
    rw [hskip, ← List.drop_drop, List.take_drop] at hfrom
    refine (hfrom.trans (List.drop_sublist _ _)).trans (List.take_sublist_take_left ?_)
    omega

/-- A reader from the front of a log that loses nothing reads its beginning. -/
theorem read_of_lost_eq {v w : Tailed α} {moments : List (Tailed α × Nat)}
    (h : Moments v moments w) (hlost : w.lost = v.lost) :
    (read moments 0).flatten = (w.log.drop v.lost).take (read moments 0).flatten.length := by
  have hsublist := read_sublist h 0
  rw [hlost, Nat.sub_self, Nat.zero_add, Nat.add_zero] at hsublist
  exact hsublist.eq_of_length_le (List.length_take_le _ _)

end Tailed

end Misc
