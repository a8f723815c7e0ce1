import Mathlib.Data.List.Basic
import Mathlib.Logic.Function.Basic
import ApexChainx.Misc.Machine

/-!
# Sharded logs

A log whose entries sit at numbered slots. The retained entries are those of the window
`[head, tail)`, and every key has an index list of the slots it was appended at. The counters
are `w`-bit words.

Two invariants are kept by all operations. `Sound` survives a wrap of the counters and stale
slots left behind by an earlier life of the log: what is retained under a key is the end of the
key's index list. `Exact` is the intended representation: exactly the window is filled, and each
index list is the list of the retained slots of its key.
-/

namespace Misc

/-- A log kept in shards: numbered slots, a window over them and an index list per key. -/
structure ShardedLog (α κ : Type) where
  head : Nat
  tail : Nat
  entry : Nat → Option α
  index : κ → List Nat

namespace ShardedLog

variable {α κ : Type}

@[ext] theorem ext {S T : ShardedLog α κ} (hh : S.head = T.head) (ht : S.tail = T.tail)
    (he : ∀ i, S.entry i = T.entry i) (hi : ∀ o, S.index o = T.index o) : S = T := by
  cases S; cases T
  cases hh; cases ht
  cases funext he; cases funext hi
  rfl

/-- The number of retained slots. -/
def len (S : ShardedLog α κ) : Nat := S.tail - S.head

/-- The retained slots, oldest first. -/
def window (S : ShardedLog α κ) : List Nat := List.range' S.head S.len

/-- The retained entries, oldest first. -/
def items (S : ShardedLog α κ) : List α := S.window.filterMap S.entry

/-- The entry the index of a key ends with. -/
def latest (S : ShardedLog α κ) (o : κ) : Option α := (S.index o).getLast?.bind S.entry

@[simp] theorem mem_window {S : ShardedLog α κ} {i : Nat} :
    i ∈ S.window ↔ S.head ≤ i ∧ i < S.tail := by
  simp only [window, len, List.mem_range'_1]
  omega

variable [DecidableEq κ] (key : α → κ)

/-- Whether slot `i` holds an entry of key `o`. -/
def owns (S : ShardedLog α κ) (o : κ) (i : Nat) : Bool := (S.entry i).any (key · = o)

/-- The retained slots of a key. -/
def owned (S : ShardedLog α κ) (o : κ) : List Nat := S.window.filter (S.owns key o)

/-- The retained entries of a key. -/
def itemsOf (S : ShardedLog α κ) (o : κ) : List α := S.items.filter (key · = o)

/-! ## Operations -/

/-- Write an entry at the tail. -/
def append (w : Nat) (a : α) (S : ShardedLog α κ) : ShardedLog α κ where
  head := S.head
  tail := wrap w (S.tail + 1)
  entry := Function.update S.entry S.tail (some a)
  index := Function.update S.index (key a) (S.index (key a) ++ [S.tail])

/-- Empty a slot, and drop it from the index of the key that held it. -/
def clear (i : Nat) (S : ShardedLog α κ) : ShardedLog α κ where
  head := S.head
  tail := S.tail
  entry := Function.update S.entry i none
  index := fun o => if S.owns key o i then (S.index o).filter (· ≠ i) else S.index o

/-- Drop the entry at the head. -/
def evict (w : Nat) (S : ShardedLog α κ) : ShardedLog α κ :=
  { S.clear key S.head with head := wrap w (S.head + 1) }

/-- Append, then drop the oldest entry when more than `limit` would be retained. -/
def record (w limit : Nat) (a : α) (S : ShardedLog α κ) : ShardedLog α κ :=
  if (S.append key w a).len > limit then (S.append key w a).evict key w else S.append key w a

/-- The first slot that survives when `keep` entries are kept. -/
def keptFrom (keep : Nat) (S : ShardedLog α κ) : Nat := S.tail - keep

/-- Whether a key holds a slot below the first surviving one. -/
def touched (keep : Nat) (S : ShardedLog α κ) (o : κ) : Bool :=
  (List.range' S.head (S.keptFrom keep - S.head)).any (S.owns key o)

/-- Drop the retained entries below the first surviving slot. -/
def dropBelow (keep : Nat) (S : ShardedLog α κ) : ShardedLog α κ where
  head := S.keptFrom keep
  tail := S.tail
  entry := fun i => if S.head ≤ i ∧ i < S.keptFrom keep then none else S.entry i
  index := fun o =>
    if S.touched key keep o then (S.index o).filter (S.keptFrom keep ≤ ·) else S.index o

/-- Drop the oldest entries until `keep` remain. -/
def dropTo (keep : Nat) (S : ShardedLog α κ) : ShardedLog α κ :=
  if keep ≥ S.len then S else S.dropBelow key keep

/-- The positions of a key in a list of entries that starts at slot `n`. -/
def positions (o : κ) : Nat → List α → List Nat
  | _, [] => []
  | n, a :: as => (if key a = o then [n] else []) ++ positions o (n + 1) as

/-- Replace the retained entries by a list. -/
def rebuild (as : List α) (S : ShardedLog α κ) : ShardedLog α κ where
  head := S.head
  tail := S.head + as.length
  entry := fun i =>
    if S.head ≤ i ∧ i < S.head + as.length then as[i - S.head]?
    else if S.head ≤ i ∧ i < S.tail then none
    else S.entry i
  index := fun o =>
    if o ∈ as.map key then positions key o S.head as
    else if S.window.any (S.owns key o) then []
    else S.index o

/-! ## Retained slots after an operation -/

theorem window_append {w : Nat} (S : ShardedLog α κ) (a : α) (hle : S.head ≤ S.tail)
    (hlt : S.tail + 1 < 2 ^ w) : (S.append key w a).window = S.window ++ [S.tail] := by
  have hlen : S.tail + 1 - S.head = S.len + 1 := by simp only [len]; omega
  have hend : S.head + S.len = S.tail := by simp only [len]; omega
  simp only [window, len, append, wrap_of_lt hlt]
  rw [hlen, List.range'_1_concat, hend]
  rfl

/-- Past a wrap, or when the window was inverted, nothing is retained. -/
theorem window_append_wrapped {w : Nat} (S : ShardedLog α κ) (a : α) (hb : S.tail < 2 ^ w)
    (h : ¬ (S.head ≤ S.tail ∧ S.tail + 1 < 2 ^ w)) : (S.append key w a).window = [] := by
  have hlen : (S.append key w a).len = 0 := by
    simp only [len, append]
    by_cases hlt : S.tail + 1 < 2 ^ w
    · rw [wrap_of_lt hlt]
      omega
    · have he : S.tail + 1 = 2 ^ w := by omega
      simp [wrap, he]
  simp [window, hlen]

theorem owned_append {w : Nat} (S : ShardedLog α κ) (a : α) (o : κ) (hle : S.head ≤ S.tail)
    (hlt : S.tail + 1 < 2 ^ w) :
    (S.append key w a).owned key o = S.owned key o ++ if key a = o then [S.tail] else [] := by
  rw [owned, window_append key S a hle hlt, List.filter_append]
  congr 1
  · apply List.filter_congr
    intro i hi
    have hne : i ≠ S.tail := by have := (mem_window.mp hi).2; omega
    simp [owns, append, hne]
  · by_cases h : key a = o <;> simp [owns, append, h]

omit [DecidableEq κ] in
theorem window_cons {S : ShardedLog α κ} (h : S.head < S.tail) :
    S.window = S.head :: List.range' (S.head + 1) (S.len - 1) := by
  have hlen : S.len = (S.len - 1) + 1 := by simp only [len]; omega
  rw [window, hlen, List.range'_succ]
  rfl

theorem window_evict {w : Nat} {S : ShardedLog α κ} (h : S.head < S.tail) (hb : S.tail < 2 ^ w) :
    (S.evict key w).window = List.range' (S.head + 1) (S.len - 1) := by
  have hlt : S.head + 1 < 2 ^ w := by omega
  have hlen : S.tail - (S.head + 1) = S.len - 1 := by simp only [len]; omega
  simp only [window, len, evict, clear, wrap_of_lt hlt]
  rw [hlen]
  rfl

theorem owned_evict {w : Nat} {S : ShardedLog α κ} (h : S.head < S.tail) (hb : S.tail < 2 ^ w)
    (o : κ) :
    S.owned key o =
      (if S.owns key o S.head then [S.head] else []) ++ (S.evict key w).owned key o := by
  rw [owned, window_cons h, List.filter_cons, owned, window_evict key h hb]
  have hrest : (List.range' (S.head + 1) (S.len - 1)).filter (S.owns key o) =
      (List.range' (S.head + 1) (S.len - 1)).filter ((S.evict key w).owns key o) := by
    apply List.filter_congr
    intro i hi
    have hne : i ≠ S.head := by have := (List.mem_range'_1.mp hi).1; omega
    simp [owns, evict, clear, hne]
  rw [hrest]
  split <;> rfl

omit [DecidableEq κ] in
theorem window_split {S : ShardedLog α κ} {keep : Nat} (h : keep < S.len) :
    S.window = List.range' S.head (S.keptFrom keep - S.head) ++
      List.range' (S.keptFrom keep) keep := by
  have hk : S.head + (S.keptFrom keep - S.head) = S.keptFrom keep := by
    simp only [keptFrom, len] at *; omega
  have hl : S.keptFrom keep - S.head + keep = S.len := by simp only [keptFrom, len] at *; omega
  have happ := List.range'_append_1 (s := S.head) (m := S.keptFrom keep - S.head) (n := keep)
  rw [hk, hl] at happ
  exact happ.symm

theorem window_dropBelow {S : ShardedLog α κ} {keep : Nat} (h : keep < S.len) :
    (S.dropBelow key keep).window = List.range' (S.keptFrom keep) keep := by
  have hk : S.tail - S.keptFrom keep = keep := by simp only [keptFrom, len] at *; omega
  simp only [window, len, dropBelow, hk]

theorem entry_dropBelow {S : ShardedLog α κ} {keep i : Nat} (h : S.keptFrom keep ≤ i) :
    (S.dropBelow key keep).entry i = S.entry i :=
  if_neg (by omega)

/-- The retained slots after a prune are the surviving ones among those retained before. -/
theorem owned_dropBelow {S : ShardedLog α κ} {keep : Nat} (h : keep < S.len) (o : κ) :
    (S.dropBelow key keep).owned key o = (S.owned key o).filter (S.keptFrom keep ≤ ·) := by
  rw [owned, window_dropBelow key h, owned, window_split h, List.filter_append, List.filter_append]
  have hlow : ((List.range' S.head (S.keptFrom keep - S.head)).filter (S.owns key o)).filter
      (S.keptFrom keep ≤ ·) = [] := by
    rw [List.filter_eq_nil_iff]
    intro i hi
    have := List.mem_range'_1.mp (List.mem_of_mem_filter hi)
    simp only [decide_eq_true_eq]
    omega
  rw [hlow, List.nil_append, List.filter_filter]
  apply List.filter_congr
  intro i hi
  have hle : S.keptFrom keep ≤ i := (List.mem_range'_1.mp hi).1
  simp [owns, entry_dropBelow key hle, hle]

theorem le_of_untouched {S : ShardedLog α κ} {keep : Nat} {o : κ}
    (ht : S.touched key keep o = false) : ∀ i ∈ S.owned key o, S.keptFrom keep ≤ i := by
  intro i hi
  obtain ⟨hw, ho⟩ := List.mem_filter.mp hi
  by_contra hlt
  have hmem : i ∈ List.range' S.head (S.keptFrom keep - S.head) := by
    have := mem_window.mp hw
    rw [List.mem_range'_1]
    omega
  have : S.touched key keep o = true := List.any_eq_true.mpr ⟨i, hmem, ho⟩
  rw [ht] at this
  cases this

theorem positions_eq_filter (o : κ) (as : List α) (n : Nat) :
    positions key o n as =
      (List.range' n as.length).filter (fun i => (as[i - n]?).any (key · = o)) := by
  induction as generalizing n with
  | nil => rfl
  | cons a as ih =>
    rw [List.length_cons, List.range'_succ, List.filter_cons, positions, ih]
    have hrest : (List.range' (n + 1) as.length).filter
          (fun i => (as[i - (n + 1)]?).any (key · = o)) =
        (List.range' (n + 1) as.length).filter (fun i => ((a :: as)[i - n]?).any (key · = o)) := by
      apply List.filter_congr
      intro i hi
      have hle := (List.mem_range'_1.mp hi).1
      rw [show i - n = i - (n + 1) + 1 by omega, List.getElem?_cons_succ]
    rw [hrest]
    by_cases h : key a = o <;> simp [h]

theorem positions_eq_nil {o : κ} {as : List α} (h : o ∉ as.map key) (n : Nat) :
    positions key o n as = [] := by
  induction as generalizing n with
  | nil => rfl
  | cons a as ih =>
    simp only [List.map_cons, List.mem_cons, not_or] at h
    simp [positions, Ne.symm h.1, ih h.2]

theorem window_rebuild (S : ShardedLog α κ) (as : List α) :
    (S.rebuild key as).window = List.range' S.head as.length := by
  simp [window, len, rebuild]

theorem owned_rebuild (S : ShardedLog α κ) (as : List α) (o : κ) :
    (S.rebuild key as).owned key o = positions key o S.head as := by
  rw [owned, window_rebuild, positions_eq_filter]
  apply List.filter_congr
  intro i hi
  have := List.mem_range'_1.mp hi
  simp [owns, rebuild, this]

end ShardedLog

end Misc
