import Mathlib.Data.List.Chain
import Mathlib.Data.List.Induction
import ApexChainx.Misc.Machine

/-!
# Bursts

The longest suffix of a list along which a relation links each element to the next (`trailing`),
and the saturating count of the latest burst of a list of times, in which consecutive times are
less than a gap apart. One more time goes on with the burst, or starts a new one.
-/

namespace Misc

section Trailing

variable {α : Type} (r : α → α → Prop) [DecidableRel r]

/-- The longest suffix of a list along which `r` links each element to the next. -/
def trailing : List α → List α
  | [] => []
  | a :: l => if (a :: l).IsChain r then a :: l else trailing l

theorem trailing_suffix (l : List α) : trailing r l <:+ l := by
  induction l with
  | nil => exact List.suffix_rfl
  | cons a l ih =>
    unfold trailing
    split
    · exact List.suffix_rfl
    · exact ih.trans (List.suffix_cons a l)

theorem isChain_trailing (l : List α) : (trailing r l).IsChain r := by
  induction l with
  | nil => exact .nil
  | cons a l ih =>
    unfold trailing
    split
    · assumption
    · exact ih

variable {r}

/-- Every linked suffix ends the longest one. -/
theorem suffix_trailing {l m : List α} (hm : m <:+ l) (hc : m.IsChain r) : m <:+ trailing r l := by
  induction l with
  | nil => simpa [trailing] using hm
  | cons a l ih =>
    unfold trailing
    split
    · exact hm
    · rename_i hbroken
      rcases List.suffix_cons_iff.mp hm with rfl | hm
      · exact absurd hc hbroken
      · exact ih hm

/-- A suffix that is linked and meets every linked suffix is the longest one. -/
theorem trailing_eq {l m : List α} (hm : m <:+ l) (hc : m.IsChain r)
    (hmax : ∀ m', m' <:+ l → m'.IsChain r → m' <:+ m) : trailing r l = m :=
  (hmax _ (trailing_suffix r l) (isChain_trailing r l)).eq_of_length_le
    (suffix_trailing hm hc).length_le

/-- A suffix of a list with one more element is empty or ends with that element. -/
theorem suffix_concat_cases {l m : List α} {b : α} (hm : m <:+ l ++ [b]) :
    m = [] ∨ ∃ front, m = front ++ [b] ∧ front <:+ l := by
  rcases List.eq_nil_or_concat' m with rfl | ⟨front, c, rfl⟩
  · exact .inl rfl
  · obtain ⟨before, hbefore⟩ := hm
    rw [← List.append_assoc] at hbefore
    obtain ⟨hfront, hlast⟩ := List.append_inj' hbefore rfl
    obtain rfl : c = b := by simpa using hlast
    exact .inr ⟨front, rfl, before, hfront⟩

theorem getLast?_of_suffix {l m : List α} {a : α} (hm : m <:+ l) (ha : m.getLast? = some a) :
    l.getLast? = some a := by
  obtain ⟨before, rfl⟩ := hm
  rw [List.getLast?_append, ha, Option.some_or]

/-- An element linked to the last one goes on with the longest suffix. -/
theorem trailing_concat_of_linked {l : List α} {a b : α} (hlast : l.getLast? = some a)
    (h : r a b) : trailing r (l ++ [b]) = trailing r l ++ [b] := by
  apply trailing_eq
  · obtain ⟨before, hbefore⟩ := trailing_suffix r l
    exact ⟨before, by rw [← List.append_assoc, hbefore]⟩
  · refine (isChain_trailing r l).append (List.isChain_singleton b) ?_
    intro c hc d hd
    have hca := getLast?_of_suffix (trailing_suffix r l) hc
    obtain rfl : a = c := Option.some.inj (hlast.symm.trans hca)
    obtain rfl : b = d := by simpa using hd
    exact h
  · intro m' hm' hc
    rcases suffix_concat_cases hm' with rfl | ⟨front, rfl, hfront⟩
    · exact List.nil_suffix
    · obtain ⟨before, hbefore⟩ := suffix_trailing hfront hc.left_of_append
      exact ⟨before, by rw [← List.append_assoc, hbefore]⟩

/-- An element that is not linked to the last one starts again. -/
theorem trailing_concat_of_broken {l : List α} {b : α}
    (h : ∀ a, l.getLast? = some a → ¬ r a b) : trailing r (l ++ [b]) = [b] := by
  apply trailing_eq (List.suffix_append l [b]) (List.isChain_singleton b)
  intro m' hm' hc
  rcases suffix_concat_cases hm' with rfl | ⟨front, rfl, hfront⟩
  · exact List.nil_suffix
  · rcases List.eq_nil_or_concat' front with rfl | ⟨front, a, rfl⟩
    · exact List.suffix_rfl
    · rw [List.append_assoc] at hc
      exact absurd (List.isChain_pair.mp hc.right_of_append)
        (h a (getLast?_of_suffix hfront (by simp)))

end Trailing

/-- The `w`-bit count of the latest burst: the times at the end of the list that follow each other
by less than `gap`. -/
def countBurst (w gap : Nat) (times : List Nat) : Nat :=
  min (unsignedMax w) (trailing (fun a b => b - a < gap) times).length

theorem countBurst_nil (w gap : Nat) : countBurst w gap [] = 0 := Nat.min_zero _

/-- A time that comes `gap` or more after the last one starts again at one, any other adds one. -/
theorem countBurst_concat {w gap : Nat} (hw : 0 < w) (times : List Nat) (now : Nat) :
    countBurst w gap (times ++ [now]) =
      saturatingAdd w
        (if times.getLast?.any (gap ≤ now - ·) then 0 else countBurst w gap times) 1 := by
  have hmax : 1 ≤ unsignedMax w := by
    have := Nat.one_lt_two_pow (Nat.ne_of_gt hw)
    simp only [unsignedMax]
    omega
  cases hlast : times.getLast? with
  | none =>
    obtain rfl := List.getLast?_eq_none_iff.mp hlast
    simp [countBurst, saturatingAdd, trailing, hmax]
  | some last =>
    by_cases hgap : gap ≤ now - last
    · have hstart := trailing_concat_of_broken (l := times) (b := now)
        (r := fun a b => b - a < gap) (by
          intro a ha
          obtain rfl : last = a := Option.some.inj (hlast.symm.trans ha)
          exact Nat.not_lt.mpr hgap)
      simp [countBurst, hstart, saturatingAdd, hgap, hmax]
    · have hgrown := trailing_concat_of_linked (r := fun a b => b - a < gap) hlast
        (Nat.lt_of_not_ge hgap)
      simp only [countBurst, hgrown, List.length_append, List.length_singleton, saturatingAdd,
        Option.any_some, hgap, decide_false, Bool.false_eq_true, if_false]
      omega

end Misc
