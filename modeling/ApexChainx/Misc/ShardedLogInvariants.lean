import Mathlib.Data.List.Infix
import ApexChainx.Misc.ShardedLog

/-!
# Invariants of sharded logs

What every operation of a sharded log keeps, what it does to the list of retained entries, and
what the index of a key says about that list.
-/

namespace Misc

namespace ShardedLog

variable {α κ : Type} [DecidableEq κ] {key : α → κ} {w : Nat} {S : ShardedLog α κ}

/-- What is retained under a key is the end of its index list. -/
structure Sound (key : α → κ) (w : Nat) (S : ShardedLog α κ) : Prop where
  bounded : S.tail < 2 ^ w
  present : ∀ i ∈ S.window, (S.entry i).isSome
  suffix : ∀ o, S.owned key o <:+ S.index o

/-- Exactly the window is filled, and each index list is the list of the retained slots. -/
structure Exact (key : α → κ) (S : ShardedLog α κ) : Prop where
  ordered : S.head ≤ S.tail
  present : ∀ i, (S.entry i).isSome ↔ S.head ≤ i ∧ i < S.tail
  index : ∀ o, S.index o = S.owned key o

/-- A log that was never written is exact. -/
theorem exact_empty : Exact key ⟨0, 0, fun _ => none, fun _ => []⟩ := by
  refine ⟨Nat.le_refl 0, ?_, ?_⟩
  · intro i
    simp
  · intro o
    simp [owned, window, len]

theorem Exact.sound (h : Exact key S) (hb : S.tail < 2 ^ w) : Sound key w S where
  bounded := hb
  present := fun i hi => (h.present i).mpr (mem_window.mp hi)
  suffix := fun o => (h.index o) ▸ List.suffix_rfl

/-- A log that retains nothing is sound whatever its index lists hold. -/
theorem Sound.of_window_nil (hb : S.tail < 2 ^ w) (h : S.window = []) : Sound key w S := by
  refine ⟨hb, ?_, ?_⟩
  · intro i hi
    simp [h] at hi
  · intro o
    simp [owned, h]

/-! ## The number of retained entries -/

/-- Recording drops one entry at most, so it stays within the limit exactly when it starts there,
or when the tail wraps. -/
theorem len_record_le_iff (hb : S.tail < 2 ^ w) (limit : Nat) (a : α) :
    (S.record key w limit a).len ≤ limit ↔ S.len ≤ limit ∨ S.tail + 1 = 2 ^ w := by
  by_cases hwraps : S.tail + 1 = 2 ^ w
  · have htail : wrap w (S.tail + 1) = 0 := by rw [hwraps, wrap, Nat.mod_self]
    have happ : (S.append key w a).len = 0 := by
      simp only [len, ShardedLog.append, htail]
      omega
    have hrec : (S.record key w limit a).len = 0 := by
      unfold ShardedLog.record
      rw [if_neg (by omega), happ]
    simp [hrec, hwraps]
  · have hlt : S.tail + 1 < 2 ^ w := by omega
    have happ : (S.append key w a).len = S.tail + 1 - S.head := by
      simp only [len, ShardedLog.append, wrap_of_lt hlt]
    unfold ShardedLog.record
    split
    · have hlen : ((S.append key w a).evict key w).len = S.len := by
        have hhead : S.head + 1 < 2 ^ w := by omega
        simp only [len, ShardedLog.evict, ShardedLog.clear, ShardedLog.append, wrap_of_lt hlt,
          wrap_of_lt hhead]
        omega
      simp [hlen, hwraps]
    · have hle : S.len ≤ limit := by
        simp only [len]
        omega
      exact iff_of_true (by omega) (.inl hle)

theorem tail_record (limit : Nat) (a : α) :
    (S.record key w limit a).tail = wrap w (S.tail + 1) := by
  unfold ShardedLog.record
  split <;> rfl

theorem tail_record_le (limit : Nat) (a : α) :
    (S.record key w limit a).tail ≤ S.tail + 1 := by
  rw [tail_record]
  exact Nat.mod_le _ _

@[simp] theorem tail_dropTo (keep : Nat) : (S.dropTo key keep).tail = S.tail := by
  unfold ShardedLog.dropTo
  split <;> rfl

theorem len_dropTo (keep : Nat) : (S.dropTo key keep).len = min S.len keep := by
  unfold ShardedLog.dropTo
  split
  · omega
  · simp only [len, ShardedLog.dropBelow, keptFrom] at *
    omega

@[simp] theorem len_rebuild (S : ShardedLog α κ) (as : List α) :
    (S.rebuild key as).len = as.length := by
  simp [len, ShardedLog.rebuild]

/-! ## The retained entries -/

theorem length_items (h : Sound key w S) : S.items.length = S.len := by
  have hall : ∀ l : List Nat, (∀ i ∈ l, (S.entry i).isSome) →
      (l.filterMap S.entry).length = l.length := by
    intro l hl
    induction l with
    | nil => rfl
    | cons i l ih =>
      obtain ⟨a, ha⟩ := Option.isSome_iff_exists.mp (hl i List.mem_cons_self)
      simp [ha, ih fun j hj => hl j (List.mem_cons_of_mem i hj)]
  rw [items, hall _ h.present, window, List.length_range']

/-- The entries at the retained slots of a key are the retained entries of that key. -/
theorem filterMap_owned (S : ShardedLog α κ) (o : κ) :
    (S.owned key o).filterMap S.entry = S.itemsOf key o := by
  simp only [owned, itemsOf, items, List.filterMap_filter, List.filter_filterMap]
  apply List.filterMap_congr
  intro i _
  cases hi : S.entry i with
  | none => simp [owns, hi]
  | some a => by_cases hk : key a = o <;> simp [owns, hi, hk, Option.filter]

theorem items_append (S : ShardedLog α κ) (a : α) (hle : S.head ≤ S.tail)
    (hlt : S.tail + 1 < 2 ^ w) : (S.append key w a).items = S.items ++ [a] := by
  rw [items, window_append key S a hle hlt, List.filterMap_append]
  congr 1
  · apply List.filterMap_congr
    intro i hi
    have hne : i ≠ S.tail := by have := (mem_window.mp hi).2; omega
    simp [append, hne]
  · simp [append]

theorem items_append_wrapped (S : ShardedLog α κ) (a : α) (hb : S.tail < 2 ^ w)
    (h : ¬ (S.head ≤ S.tail ∧ S.tail + 1 < 2 ^ w)) : (S.append key w a).items = [] := by
  rw [items, window_append_wrapped key S a hb h]
  rfl

theorem items_evict (hs : Sound key w S) (h : S.head < S.tail) :
    (S.evict key w).items = S.items.tail := by
  have hhead : S.head ∈ S.window := mem_window.mpr ⟨Nat.le_refl _, h⟩
  obtain ⟨a, ha⟩ := Option.isSome_iff_exists.mp (hs.present _ hhead)
  rw [items, window_evict key h hs.bounded, items, window_cons h, List.filterMap_cons, ha]
  apply List.filterMap_congr
  intro i hi
  have hne : i ≠ S.head := by have := (List.mem_range'_1.mp hi).1; omega
  simp [evict, clear, hne]

theorem items_dropTo (hs : Sound key w S) (keep : Nat) :
    (S.dropTo key keep).items = S.items.drop (S.len - keep) := by
  by_cases h : keep ≥ S.len
  · have hz : S.len - keep = 0 := by omega
    simp [dropTo, h, hz]
  · have hlt : keep < S.len := by omega
    have hd : S.dropTo key keep = S.dropBelow key keep := if_neg h
    have hlow : ((List.range' S.head (S.keptFrom keep - S.head)).filterMap S.entry).length =
        S.len - keep := by
      have hlen := length_items hs
      have hhigh : ((List.range' (S.keptFrom keep) keep).filterMap S.entry).length ≤ keep := by
        simpa using List.length_filterMap_le S.entry (List.range' (S.keptFrom keep) keep)
      have hle := List.length_filterMap_le S.entry
        (List.range' S.head (S.keptFrom keep - S.head))
      rw [items, window_split hlt, List.filterMap_append, List.length_append] at hlen
      rw [List.length_range'] at hle
      simp only [keptFrom, len] at *
      omega
    rw [hd, items, window_dropBelow key hlt, items, window_split hlt, List.filterMap_append,
      ← hlow, List.drop_left]
    apply List.filterMap_congr
    intro i hi
    exact entry_dropBelow key (List.mem_range'_1.mp hi).1

theorem items_rebuild (S : ShardedLog α κ) (as : List α) : (S.rebuild key as).items = as := by
  have hall : ∀ (as : List α) (n : Nat),
      (List.range' n as.length).filterMap (fun i => as[i - n]?) = as := by
    intro as
    induction as with
    | nil => intro n; rfl
    | cons a as ih =>
      intro n
      rw [List.length_cons, List.range'_succ, List.filterMap_cons, Nat.sub_self]
      simp only [List.getElem?_cons_zero, List.cons.injEq, true_and]
      refine Eq.trans (List.filterMap_congr ?_) (ih (n + 1))
      intro i hi
      have hle := (List.mem_range'_1.mp hi).1
      rw [show i - n = i - (n + 1) + 1 by omega, List.getElem?_cons_succ]
  rw [items, window_rebuild]
  refine Eq.trans (List.filterMap_congr ?_) (hall as S.head)
  intro i hi
  have := List.mem_range'_1.mp hi
  simp [rebuild, this]

/-! ## Soundness -/

theorem Sound.append (hs : Sound key w S) (a : α) : Sound key w (S.append key w a) where
  bounded := wrap_lt w _
  present := by
    intro i hi
    by_cases h : S.head ≤ S.tail ∧ S.tail + 1 < 2 ^ w
    · rw [window_append key S a h.1 h.2, List.mem_append, List.mem_singleton] at hi
      rcases hi with hi | rfl
      · have hne : i ≠ S.tail := by have := (mem_window.mp hi).2; omega
        simpa [ShardedLog.append, hne] using hs.present i hi
      · simp [ShardedLog.append]
    · rw [window_append_wrapped key S a hs.bounded h] at hi
      cases hi
  suffix := by
    intro o
    by_cases h : S.head ≤ S.tail ∧ S.tail + 1 < 2 ^ w
    · obtain ⟨stale, hstale⟩ := hs.suffix o
      rw [owned_append key S a o h.1 h.2]
      by_cases hk : key a = o
      · subst hk
        refine ⟨stale, ?_⟩
        simp [ShardedLog.append, ← hstale]
      · refine ⟨stale, ?_⟩
        simp [ShardedLog.append, Function.update_of_ne (Ne.symm hk), hk, hstale]
    · rw [owned, window_append_wrapped key S a hs.bounded h]
      exact List.nil_suffix

theorem Sound.evict (hs : Sound key w S) (h : S.head < S.tail) : Sound key w (S.evict key w) where
  bounded := hs.bounded
  present := by
    intro i hi
    rw [window_evict key h hs.bounded] at hi
    have hw : i ∈ S.window := by rw [window_cons h]; exact List.mem_cons_of_mem _ hi
    have hne : i ≠ S.head := by have := (List.mem_range'_1.mp hi).1; omega
    simpa [ShardedLog.evict, ShardedLog.clear, hne] using hs.present i hw
  suffix := by
    intro o
    have howned := owned_evict key h hs.bounded o
    have hge : ∀ i ∈ (S.evict key w).owned key o, i ≠ S.head := by
      intro i hi
      have hmem := (List.mem_filter.mp hi).1
      rw [window_evict key h hs.bounded] at hmem
      have := (List.mem_range'_1.mp hmem).1
      omega
    by_cases ho : S.owns key o S.head
    · have hfilter : (S.evict key w).owned key o = (S.owned key o).filter (· ≠ S.head) := by
        rw [howned, if_pos ho, List.singleton_append, List.filter_cons]
        simp only [ne_eq, not_true_eq_false, decide_false, Bool.false_eq_true, if_false]
        exact (List.filter_eq_self.mpr fun i hi => by simpa using hge i hi).symm
      rw [hfilter]
      simpa [ShardedLog.evict, ShardedLog.clear, ho] using (hs.suffix o).filter _
    · rw [if_neg ho, List.nil_append] at howned
      rw [← howned]
      simpa [ShardedLog.evict, ShardedLog.clear, ho] using hs.suffix o

theorem Sound.record (hs : Sound key w S) (limit : Nat) (a : α) :
    Sound key w (S.record key w limit a) := by
  unfold ShardedLog.record
  split
  · rename_i hlen
    exact (hs.append a).evict (by simp only [len] at hlen; omega)
  · exact hs.append a

/-- Where the counters have room, a record is an append to the retained entries, less the oldest
when they would exceed the limit. -/
theorem items_record (hs : Sound key w S) (hle : S.head ≤ S.tail) (hlt : S.tail + 1 < 2 ^ w)
    (limit : Nat) (a : α) :
    (S.record key w limit a).items =
      if S.len + 1 > limit then (S.items ++ [a]).tail else S.items ++ [a] := by
  have hlen : (S.append key w a).len = S.len + 1 := by
    simp only [len, ShardedLog.append, wrap_of_lt hlt]
    omega
  unfold ShardedLog.record
  rw [hlen]
  split
  · rw [items_evict (hs.append a) (by simp only [len] at hlen; omega),
      items_append S a hle hlt]
  · exact items_append S a hle hlt

/-- Past a wrap a record retains nothing. -/
theorem items_record_wrapped (hb : S.tail < 2 ^ w)
    (h : ¬ (S.head ≤ S.tail ∧ S.tail + 1 < 2 ^ w)) (limit : Nat) (a : α) :
    (S.record key w limit a).items = [] := by
  have hlen : (S.append key w a).len = 0 := by
    simpa [window] using window_append_wrapped key S a hb h
  rw [ShardedLog.record, if_neg (by omega)]
  exact items_append_wrapped S a hb h

/-- In any case a record keeps an end of the retained entries and the new one. -/
theorem items_record_suffix (hs : Sound key w S) (limit : Nat) (a : α) :
    (S.record key w limit a).items <:+ S.items ++ [a] := by
  have happend : (S.append key w a).items <:+ S.items ++ [a] := by
    by_cases h : S.head ≤ S.tail ∧ S.tail + 1 < 2 ^ w
    · rw [items_append S a h.1 h.2]
    · rw [items_append_wrapped S a hs.bounded h]
      exact List.nil_suffix
  unfold ShardedLog.record
  split
  · rename_i hlen
    rw [items_evict (hs.append a) (by simp only [len] at hlen; omega)]
    exact (List.tail_suffix _).trans happend
  · exact happend

theorem Sound.dropTo (hs : Sound key w S) (keep : Nat) : Sound key w (S.dropTo key keep) := by
  by_cases h : keep ≥ S.len
  · simpa [ShardedLog.dropTo, h] using hs
  · have hlt : keep < S.len := by omega
    have hd : S.dropTo key keep = S.dropBelow key keep := if_neg h
    rw [hd]
    refine ⟨hs.bounded, ?_, ?_⟩
    · intro i hi
      rw [window_dropBelow key hlt] at hi
      have hw : i ∈ S.window := by
        rw [window_split hlt]
        exact List.mem_append_right _ hi
      rw [entry_dropBelow key (List.mem_range'_1.mp hi).1]
      exact hs.present i hw
    · intro o
      rw [owned_dropBelow key hlt]
      by_cases ht : S.touched key keep o
      · simpa [dropBelow, ht] using (hs.suffix o).filter _
      · have hself : (S.owned key o).filter (S.keptFrom keep ≤ ·) = S.owned key o :=
          List.filter_eq_self.mpr fun i hi => by
            simpa using le_of_untouched key (by simpa using ht) i hi
        rw [hself]
        simpa [dropBelow, ht] using hs.suffix o

theorem Sound.rebuild (hs : Sound key w S) {as : List α} (hlen : as.length ≤ S.len)
    (hw : S.head < 2 ^ w) : Sound key w (S.rebuild key as) where
  bounded := by
    have := hs.bounded
    simp only [ShardedLog.rebuild, len] at *
    omega
  present := by
    intro i hi
    rw [window_rebuild] at hi
    obtain ⟨hle, hlt⟩ := List.mem_range'_1.mp hi
    have hidx : i - S.head < as.length := by omega
    simp [ShardedLog.rebuild, hle, hlt, hidx]
  suffix := by
    intro o
    rw [owned_rebuild]
    by_cases ho : o ∈ as.map key
    · simp only [ShardedLog.rebuild, if_pos ho]
      exact List.suffix_rfl
    · rw [positions_eq_nil key ho]
      exact List.nil_suffix

/-! ## Exactness -/

theorem Exact.append (he : Exact key S) (a : α) (hlt : S.tail + 1 < 2 ^ w) :
    Exact key (S.append key w a) where
  ordered := by
    have := he.ordered
    simp only [ShardedLog.append, wrap_of_lt hlt]
    omega
  present := by
    intro i
    have hle := he.ordered
    by_cases hi : i = S.tail
    · subst hi
      simpa [ShardedLog.append, wrap_of_lt hlt] using hle
    · simp only [ShardedLog.append, wrap_of_lt hlt, Function.update_of_ne hi, he.present]
      omega
  index := by
    intro o
    rw [owned_append key S a o he.ordered hlt, ← he.index]
    by_cases hk : key a = o
    · subst hk
      simp [ShardedLog.append]
    · simp [ShardedLog.append, Function.update_of_ne (Ne.symm hk), hk]

theorem Exact.evict (he : Exact key S) (h : S.head < S.tail) (hb : S.tail < 2 ^ w) :
    Exact key (S.evict key w) where
  ordered := by
    simp only [ShardedLog.evict, ShardedLog.clear, wrap_of_lt (show S.head + 1 < 2 ^ w by omega)]
    omega
  present := by
    intro i
    have hlt : S.head + 1 < 2 ^ w := by omega
    by_cases hi : i = S.head
    · subst hi
      simp only [ShardedLog.evict, ShardedLog.clear, wrap_of_lt hlt, Function.update_self,
        Option.isSome_none, Bool.false_eq_true, false_iff]
      omega
    · simp only [ShardedLog.evict, ShardedLog.clear, wrap_of_lt hlt, Function.update_of_ne hi,
        he.present]
      omega
  index := by
    intro o
    have howned := owned_evict key h hb o
    have hge : ∀ i ∈ (S.evict key w).owned key o, i ≠ S.head := by
      intro i hi
      have hmem := (List.mem_filter.mp hi).1
      rw [window_evict key h hb] at hmem
      have := (List.mem_range'_1.mp hmem).1
      omega
    by_cases ho : S.owns key o S.head
    · have hself : ((S.evict key w).owned key o).filter (· ≠ S.head) =
          (S.evict key w).owned key o :=
        List.filter_eq_self.mpr fun i hi => by simpa using hge i hi
      have hidx : (S.evict key w).index o = (S.index o).filter (· ≠ S.head) := by
        simp [ShardedLog.evict, ShardedLog.clear, ho]
      rw [hidx, he.index, howned, if_pos ho, List.singleton_append, List.filter_cons, hself]
      simp
    · rw [if_neg ho, List.nil_append] at howned
      simp [ShardedLog.evict, ShardedLog.clear, ho, he.index, howned]

theorem Exact.record (he : Exact key S) (limit : Nat) (a : α) (hlt : S.tail + 1 < 2 ^ w) :
    Exact key (S.record key w limit a) := by
  unfold ShardedLog.record
  split
  · rename_i hlen
    exact (he.append a hlt).evict (by simp only [len] at hlen; omega) (wrap_lt w _)
  · exact he.append a hlt

theorem Exact.dropTo (he : Exact key S) (keep : Nat) : Exact key (S.dropTo key keep) := by
  by_cases h : keep ≥ S.len
  · simpa [ShardedLog.dropTo, h] using he
  · have hlt : keep < S.len := by omega
    have hd : S.dropTo key keep = S.dropBelow key keep := if_neg h
    rw [hd]
    refine ⟨?_, ?_, ?_⟩
    · simp only [dropBelow, keptFrom]
      omega
    · intro i
      have hfrom : S.head ≤ S.keptFrom keep ∧ S.keptFrom keep ≤ S.tail := by
        simp only [keptFrom, len] at *
        omega
      by_cases hi : S.head ≤ i ∧ i < S.keptFrom keep
      · simp only [dropBelow, if_pos hi, Option.isSome_none, Bool.false_eq_true, false_iff]
        omega
      · simp only [dropBelow, if_neg hi, he.present]
        omega
    · intro o
      rw [owned_dropBelow key hlt, ← he.index]
      by_cases ht : S.touched key keep o
      · simp [dropBelow, ht]
      · have hself : (S.owned key o).filter (S.keptFrom keep ≤ ·) = S.owned key o :=
          List.filter_eq_self.mpr fun i hi => by
            simpa using le_of_untouched key (by simpa using ht) i hi
        rw [he.index, hself]
        simp [dropBelow, ht, he.index]

theorem Exact.rebuild (he : Exact key S) (as : List α) : Exact key (S.rebuild key as) where
  ordered := by simp [ShardedLog.rebuild]
  present := by
    intro i
    by_cases hi : S.head ≤ i ∧ i < S.head + as.length
    · have hidx : i - S.head < as.length := by omega
      simp [ShardedLog.rebuild, hi, hidx]
    · by_cases hold : S.head ≤ i ∧ i < S.tail
      · simp only [ShardedLog.rebuild, if_neg hi, if_pos hold, Option.isSome_none,
          Bool.false_eq_true, false_iff]
        exact hi
      · simp only [ShardedLog.rebuild, if_neg hi, if_neg hold, he.present]
        exact iff_of_false hold hi
  index := by
    intro o
    rw [owned_rebuild]
    by_cases ho : o ∈ as.map key
    · simp only [ShardedLog.rebuild, if_pos ho]
    · rw [positions_eq_nil key ho]
      simp only [ShardedLog.rebuild, if_neg ho]
      by_cases hany : S.window.any (S.owns key o)
      · simp [hany]
      · simp only [hany, Bool.false_eq_true, if_false, he.index, owned]
        rw [List.filter_eq_nil_iff]
        exact fun i hi hown => hany (List.any_eq_true.mpr ⟨i, hi, hown⟩)

/-! ## What the index of a key says -/

/-- The last entry under a key is found through its index. -/
theorem Sound.latest_eq (hs : Sound key w S) {o : κ} (h : S.itemsOf key o ≠ []) :
    S.latest o = (S.itemsOf key o).getLast? := by
  rw [← filterMap_owned] at h ⊢
  have hne : S.owned key o ≠ [] := fun e => h (by rw [e]; rfl)
  obtain ⟨front, last, hsplit⟩ := (List.eq_nil_or_concat _).resolve_left hne
  rw [List.concat_eq_append] at hsplit
  obtain ⟨stale, hstale⟩ := hs.suffix o
  have hmem : last ∈ S.owned key o := by rw [hsplit]; simp
  obtain ⟨a, ha⟩ := Option.isSome_iff_exists.mp
    (hs.present last (List.mem_filter.mp hmem).1)
  have hlast : (S.index o).getLast? = some last := by
    rw [← hstale, hsplit, ← List.append_assoc, List.getLast?_concat]
  simp [latest, hlast, hsplit, ha]

theorem Exact.latest_eq (he : Exact key S) (o : κ) :
    S.latest o = (S.itemsOf key o).getLast? := by
  by_cases h : S.itemsOf key o = []
  · have hs : Sound key (S.tail + 1) S :=
      he.sound (Nat.lt_trans (Nat.lt_succ_self _) Nat.lt_two_pow_self)
    have hnil : S.owned key o = [] := by
      by_contra hne
      obtain ⟨i, hi⟩ := List.exists_mem_of_ne_nil _ hne
      obtain ⟨a, ha⟩ := Option.isSome_iff_exists.mp (hs.present i (List.mem_filter.mp hi).1)
      have hmem : a ∈ S.itemsOf key o := by
        rw [← filterMap_owned]
        exact List.mem_filterMap.mpr ⟨i, hi, ha⟩
      rw [h] at hmem
      cases hmem
    simp [latest, he.index, hnil, h]
  · exact (he.sound (w := S.tail + 1)
      (Nat.lt_trans (Nat.lt_succ_self _) Nat.lt_two_pow_self)).latest_eq h

theorem Exact.entries_eq (he : Exact key S) (o : κ) :
    (S.index o).filterMap S.entry = S.itemsOf key o := by
  rw [he.index, filterMap_owned]

theorem Exact.length_index (he : Exact key S) (o : κ) :
    (S.index o).length = (S.itemsOf key o).length := by
  rw [he.index, ← filterMap_owned]
  have hpresent : ∀ i ∈ S.owned key o, (S.entry i).isSome :=
    fun i hi => (he.present i).mpr (mem_window.mp (List.mem_filter.mp hi).1)
  generalize S.owned key o = l at hpresent
  induction l with
  | nil => rfl
  | cons i l ih =>
    obtain ⟨a, ha⟩ := Option.isSome_iff_exists.mp (hpresent i List.mem_cons_self)
    simp [ha, ih fun j hj => hpresent j (List.mem_cons_of_mem i hj)]

/-! ## What the slots hold -/

/-- A slot holds the entry, retained or not. -/
def Holds (S : ShardedLog α κ) (a : α) : Prop := ∃ i, S.entry i = some a

omit [DecidableEq κ] in
theorem holds_of_latest {o : κ} {a : α} (h : S.latest o = some a) : S.Holds a := by
  obtain ⟨i, -, hi⟩ := Option.bind_eq_some_iff.mp h
  exact ⟨i, hi⟩

theorem holds_record {limit : Nat} {a b : α} (h : (S.record key w limit a).Holds b) :
    b = a ∨ S.Holds b := by
  have happend : ∀ i, (S.append key w a).entry i = some b → b = a ∨ S.Holds b := by
    intro i hi
    by_cases hslot : i = S.tail
    · exact .inl (by simpa [ShardedLog.append, hslot, eq_comm] using hi)
    · exact .inr ⟨i, by simpa [ShardedLog.append, hslot] using hi⟩
  obtain ⟨i, hi⟩ := h
  unfold ShardedLog.record at hi
  split at hi
  · -- the eviction only empties a slot
    simp only [ShardedLog.evict, ShardedLog.clear, Function.update_apply] at hi
    split at hi
    · cases hi
    · exact happend i hi
  · exact happend i hi

theorem holds_dropTo {keep : Nat} {b : α} (h : (S.dropTo key keep).Holds b) : S.Holds b := by
  obtain ⟨i, hi⟩ := h
  unfold ShardedLog.dropTo at hi
  split at hi
  · exact ⟨i, hi⟩
  · simp only [ShardedLog.dropBelow] at hi
    split at hi
    · cases hi
    · exact ⟨i, hi⟩

theorem holds_rebuild {as : List α} {b : α} (h : (S.rebuild key as).Holds b) :
    b ∈ as ∨ S.Holds b := by
  obtain ⟨i, hi⟩ := h
  simp only [ShardedLog.rebuild] at hi
  split at hi
  · exact .inl (List.mem_of_getElem? hi)
  split at hi
  · cases hi
  · exact .inr ⟨i, hi⟩

end ShardedLog

end Misc
