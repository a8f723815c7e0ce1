import ApexChainx.Contract.History
import ApexChainx.Misc.ShardedLogInvariants

/-!
# The sharded history is a sharded log

`History.shards` reads the history keys of a storage as a sharded log keyed by outage. Each
operation of `history.rs` always returns, publishes nothing, changes no other key, and acts on
the log as the operation of `ApexChainx.Misc.ShardedLog` of the same purpose does.
-/

namespace ApexChainx.History

open Host Misc

/-- The sharded log a storage holds. -/
def shards (s : Storage) : ShardedLog SLAResult Symbol where
  head := head s
  tail := tail s
  entry := readEntry s
  index := entryIndicesForOutage s

@[simp] theorem shards_head (s : Storage) : (shards s).head = head s := rfl
@[simp] theorem shards_tail (s : Storage) : (shards s).tail = tail s := rfl
@[simp] theorem shards_entry (s : Storage) : (shards s).entry = readEntry s := rfl
@[simp] theorem shards_index (s : Storage) : (shards s).index = entryIndicesForOutage s := rfl
@[simp] theorem shards_len (s : Storage) : (shards s).len = len s := rfl

/-- A full read stays below `u32::MAX`. -/
theorem length_readAllEntries_le (s : Storage) :
    (readAllEntries s).length = 0 ∨ head s + (readAllEntries s).length < 2 ^ 32 := by
  have hle := List.length_filterMap_le (readEntry s)
    (List.range' (head s) (saturatingAdd 32 (head s) (len s) - head s))
  rw [List.length_range'] at hle
  simp only [readAllEntries, readRange]
  simp only [saturatingAdd, unsignedMax] at hle ⊢
  omega

/-- Below the last counter value a full read is the retained entries. -/
theorem readAllEntries_eq_items {s : Storage} (h : tail s < 2 ^ 32) :
    readAllEntries s = (shards s).items := by
  have hcount : saturatingAdd 32 (head s) (len s) - head s = len s := by
    simp only [saturatingAdd, unsignedMax, len]
    omega
  simp only [readAllEntries, readRange, hcount]
  rfl

/-- The keys the sharded history owns. -/
def isHistoryKey : StorageKey → Bool
  | .histEntry _ | .histIndex _ | .histHead | .histTail | .historyLen => true
  | _ => false

/-- The part of a storage the log is read from. -/
def logKeys : Set StorageKey := {k | isHistoryKey k = true ∧ k ≠ .historyLen}

/-- Storages that agree on the history keys hold the same log. -/
theorem shards_congr {s s' : Storage} (h : Store.Agree logKeys s s') : shards s = shards s' := by
  have hk : ∀ k, isHistoryKey k = true → k ≠ .historyLen → s k = s' k := fun k h₁ h₂ =>
    h k ⟨h₁, h₂⟩
  refine ShardedLog.ext ?_ ?_ ?_ ?_
  · simp only [shards_head, head, hk .histHead rfl (by simp)]
  · simp only [shards_tail, tail, hk .histTail rfl (by simp)]
  · intro i
    exact hk (.histEntry i) rfl (by simp)
  · intro o
    simp only [shards_index, entryIndicesForOutage, hk (.histIndex o) rfl (by simp)]

/-! ## One write, read as a log -/

@[simp] theorem shards_set_head (s : Storage) (h : Nat) :
    shards (s.set .histHead h) = { shards s with head := h } :=
  ShardedLog.ext (by simp [head]) (by simp [tail]) (fun _ => by simp [readEntry])
    (fun _ => by simp [entryIndicesForOutage])

@[simp] theorem shards_set_tail (s : Storage) (t : Nat) :
    shards (s.set .histTail t) = { shards s with tail := t } :=
  ShardedLog.ext (by simp [head]) (by simp [tail]) (fun _ => by simp [readEntry])
    (fun _ => by simp [entryIndicesForOutage])

@[simp] theorem shards_set_entry (s : Storage) (i : Nat) (entry : SLAResult) :
    shards (s.set (.histEntry i) entry) =
      { shards s with entry := Function.update (shards s).entry i (some entry) } := by
  refine ShardedLog.ext (by simp [head]) (by simp [tail]) ?_
    (fun _ => by simp [entryIndicesForOutage])
  intro j
  by_cases h : j = i
  · subst h; simp [readEntry]
  · simp [readEntry, h]

@[simp] theorem shards_remove_entry (s : Storage) (i : Nat) :
    shards (s.remove (.histEntry i)) =
      { shards s with entry := Function.update (shards s).entry i none } := by
  refine ShardedLog.ext (by simp [head]) (by simp [tail]) ?_
    (fun _ => by simp [entryIndicesForOutage])
  intro j
  by_cases h : j = i
  · subst h; simp [readEntry]
  · simp [readEntry, h]

@[simp] theorem shards_set_index (s : Storage) (o : Symbol) (indices : List Nat) :
    shards (s.set (.histIndex o) indices) =
      { shards s with index := Function.update (shards s).index o indices } := by
  refine ShardedLog.ext (by simp [head]) (by simp [tail]) (fun _ => by simp [readEntry])
    (fun p => ?_)
  by_cases h : p = o
  · subst h; simp [entryIndicesForOutage]
  · simp [entryIndicesForOutage, h]

@[simp] theorem shards_remove_index (s : Storage) (o : Symbol) :
    shards (s.remove (.histIndex o)) =
      { shards s with index := Function.update (shards s).index o [] } := by
  refine ShardedLog.ext (by simp [head]) (by simp [tail]) (fun _ => by simp [readEntry])
    (fun p => ?_)
  by_cases h : p = o
  · subst h; simp [entryIndicesForOutage]
  · simp [entryIndicesForOutage, h]

@[simp] theorem shards_set_len (s : Storage) (n : Nat) :
    shards (s.set .historyLen n) = shards s :=
  shards_congr fun k hk => by simp [Store.set_other _ _ hk.2]

theorem shards_set_of_other {s : Storage} {k : StorageKey} {v : k.Val}
    (hk : isHistoryKey k = false) : shards (s.set k v) = shards s :=
  shards_congr fun j hj => Store.set_other _ _ (fun e => by simp [logKeys, e, hk] at hj)

theorem shards_remove_of_other {s : Storage} {k : StorageKey} (hk : isHistoryKey k = false) :
    shards (s.remove k) = shards s :=
  shards_congr fun j hj => Store.remove_other _ (fun e => by simp [logKeys, e, hk] at hj)

/-- A write of a history key leaves the keys outside the history. -/
theorem set_historyKey {s : Storage} {k j : StorageKey} {v : k.Val} (hk : isHistoryKey k = true)
    (hj : isHistoryKey j = false) : s.set k v j = s j :=
  Store.set_other _ _ (fun e => by simp [e, hk] at hj)

/-- So does a removal. -/
theorem remove_historyKey {s : Storage} {k j : StorageKey} (hk : isHistoryKey k = true)
    (hj : isHistoryKey j = false) : s.remove k j = s j :=
  Store.remove_other _ (fun e => by simp [e, hk] at hj)

/-- What an operation of the history leaves: the log `L`, the events as they were, and every
key outside the history as it was. -/
structure Leaves (env env' : ContractEnv) (L : ShardedLog SLAResult Symbol) : Prop where
  log : shards env'.storage = L
  events : env'.events = env.events
  other : ∀ k, isHistoryKey k = false → env'.storage k = env.storage k

theorem Leaves.refl (env : ContractEnv) : Leaves env env (shards env.storage) :=
  ⟨rfl, rfl, fun _ _ => rfl⟩

theorem Leaves.trans {env mid env' : ContractEnv} {L L' : ShardedLog SLAResult Symbol}
    (h : Leaves env mid L) (h' : Leaves mid env' L') : Leaves env env' L' :=
  ⟨h'.log, h'.events.trans h.events, fun k hk => (h'.other k hk).trans (h.other k hk)⟩

/-- A write of one of the history keys. -/
theorem Leaves.set (env : ContractEnv) {k : StorageKey} (v : k.Val) (hk : isHistoryKey k = true) :
    Leaves env (env.set k v) (shards (env.storage.set k v)) :=
  ⟨rfl, rfl, fun _ hj => set_historyKey hk hj⟩

/-- A removal of one of the history keys. -/
theorem Leaves.remove (env : ContractEnv) {k : StorageKey} (hk : isHistoryKey k = true) :
    Leaves env (env.remove k) (shards (env.storage.remove k)) :=
  ⟨rfl, rfl, fun _ hj => remove_historyKey hk hj⟩

/-! ## Append -/

theorem dropOldest_total (h : Nat) : (dropOldest h).Total :=
  .bind (.get _) fun _ => .bind (.remove _) fun _ => .whenSome _ fun _ =>
    .bind (.ask _) fun _ => .set _ _

theorem dropOldest_leaves {h : Nat} {f : Frame Address} {env env' : ContractEnv} {u : Unit}
    (hr : (dropOldest h).Returns f env u env') :
    Leaves env env' ((shards env.storage).clear SLAResult.outage_id h) := by
  simp only [dropOldest, Contract.get, Contract.remove, Prog.returns_get_bind,
    Prog.returns_remove_bind] at hr
  cases hd : env.storage (.histEntry h) with
  | none =>
    simp only [hd, Prog.whenSome_none, Prog.returns_pure] at hr
    obtain ⟨-, rfl⟩ := hr
    refine ⟨?_, rfl, fun k hk => remove_historyKey rfl hk⟩
    simp [ShardedLog.clear, ShardedLog.owns, readEntry, hd]
  | some d =>
    simp only [hd, Prog.whenSome_some, Contract.ask, Contract.set, Prog.returns_ask_bind,
      Prog.returns_set] at hr
    subst hr
    refine ⟨?_, rfl, fun k hk => (set_historyKey rfl hk).trans (remove_historyKey rfl hk)⟩
    refine ShardedLog.ext (by simp [ShardedLog.clear]) (by simp [ShardedLog.clear])
      (fun i => by simp [ShardedLog.clear]) (fun o => ?_)
    by_cases ho : d.outage_id = o
    · subst ho
      simp [ShardedLog.clear, ShardedLog.owns, readEntry, hd, entryIndicesForOutage]
    · simp [ShardedLog.clear, ShardedLog.owns, readEntry, hd, entryIndicesForOutage, ho,
        Ne.symm ho]

theorem appendEntry_total (entry : SLAResult) (limit : Nat) (indices : List Nat) :
    (appendEntry entry limit indices).Total :=
  .bind (.ask _) fun _ => .bind (.ask _) fun _ => .bind (.set _ _) fun _ =>
    .bind (.set _ _) fun _ => .bind (.set _ _) fun _ => .ite _
      (.bind (dropOldest_total _) fun _ => .bind (.set _ _) fun _ => .set _ _) (.set _ _)

/-- `append_entry`, given the index list the storage holds, records the entry in the log. -/
theorem appendEntry_leaves {entry : SLAResult} {limit : Nat} {f : Frame Address}
    {env env' : ContractEnv} {u : Unit}
    (hr : (appendEntry entry limit (entryIndicesForOutage env.storage entry.outage_id)).Returns
      f env u env') :
    Leaves env env' ((shards env.storage).record SLAResult.outage_id 32 limit entry) ∧
      env'.storage .historyLen = some (len env'.storage) := by
  simp only [appendEntry, Contract.ask, Contract.set, Prog.returns_ask_bind,
    Prog.returns_set_bind, Prog.returns_ite, Prog.returns_set] at hr
  generalize henv₁ : ((env.set (.histEntry (tail env.storage)) entry).set
    (.histIndex entry.outage_id)
    (entryIndicesForOutage env.storage entry.outage_id ++ [tail env.storage])).set .histTail
    (wrap 32 (tail env.storage + 1)) = env₁ at hr
  have happ : shards env₁.storage = (shards env.storage).append SLAResult.outage_id 32 entry := by
    subst henv₁
    simp [ShardedLog.append, entryIndicesForOutage]
  have hother : ∀ k, isHistoryKey k = false → env₁.storage k = env.storage k := by
    intro k hk
    subst henv₁
    exact (set_historyKey rfl hk).trans ((set_historyKey rfl hk).trans (set_historyKey rfl hk))
  have hevents : env₁.events = env.events := by subst henv₁; rfl
  rcases hr with ⟨hover, hr⟩ | ⟨hfits, rfl⟩
  · obtain ⟨_, env₂, hdrop, henv'⟩ := (Prog.returns_bind ..).mp hr
    simp only [Prog.returns_set_bind, Prog.returns_set] at henv'
    have hd := dropOldest_leaves hdrop
    have hrec : (shards env.storage).record SLAResult.outage_id 32 limit entry =
        ((shards env.storage).append SLAResult.outage_id 32 entry).evict SLAResult.outage_id 32 :=
      if_pos (by simpa [ShardedLog.len, ShardedLog.append] using hover)
    have hlog : shards env'.storage =
        (shards env.storage).record SLAResult.outage_id 32 limit entry := by
      subst henv'
      simp only [Env.set_storage, shards_set_len, shards_set_head, hd.log, happ, hrec]
      rfl
    refine ⟨⟨hlog, ?_, ?_⟩, ?_⟩
    · simp [henv', hd.events, hevents]
    · intro k hk
      rw [← hother k hk, ← hd.other k hk, henv']
      exact (set_historyKey rfl hk).trans (set_historyKey rfl hk)
    · rw [← shards_len, hlog, hrec, henv']
      simp [ShardedLog.len, ShardedLog.evict, ShardedLog.clear, ShardedLog.append]
  · have hrec : (shards env.storage).record SLAResult.outage_id 32 limit entry =
        (shards env.storage).append SLAResult.outage_id 32 entry :=
      if_neg (by simpa [ShardedLog.len, ShardedLog.append] using hfits)
    have hlog : shards (env₁.set .historyLen
        (wrap 32 (tail env.storage + 1) - head env.storage)).storage =
        (shards env.storage).record SLAResult.outage_id 32 limit entry := by
      simp [hrec, happ]
    refine ⟨⟨hlog, by simpa using hevents, ?_⟩, ?_⟩
    · intro k hk
      rw [← hother k hk]
      exact set_historyKey rfl hk
    · rw [← shards_len, hlog, hrec]
      simp [ShardedLog.len, ShardedLog.append]

/-! ## Prune -/

theorem mem_noteOwner {outages : List Symbol} {owner : Option SLAResult} {o : Symbol} :
    o ∈ noteOwner outages owner ↔ o ∈ outages ∨ owner.any (·.outage_id = o) = true := by
  cases owner with
  | none => simp [noteOwner]
  | some entry =>
    by_cases h : entry.outage_id ∈ outages
    · simp only [noteOwner, noteOutage, if_pos h, Option.any_some, decide_eq_true_eq]
      exact ⟨.inl, fun h' => h'.elim id (fun e => e ▸ h)⟩
    · simp [noteOwner, noteOutage, h, eq_comm]

/-- The log once the listed slots are emptied. -/
def without (L : ShardedLog SLAResult Symbol) (l : List Nat) : ShardedLog SLAResult Symbol :=
  { L with entry := fun i => if i ∈ l then none else L.entry i }

theorem without_nil (L : ShardedLog SLAResult Symbol) : without L [] = L := by
  simp [without]

theorem without_cons (L : ShardedLog SLAResult Symbol) (i : Nat) (l : List Nat) :
    without { L with entry := Function.update L.entry i none } l = without L (i :: l) := by
  refine ShardedLog.ext rfl rfl ?_ (fun _ => rfl)
  intro j
  by_cases hj : j = i
  · subst hj; simp [without]
  · simp [without, hj]

/-- Emptying slot `i` after noting its owner loses no owner. -/
theorem owner_of_cons (L : ShardedLog SLAResult Symbol) (i : Nat) (l : List Nat) (o : Symbol) :
    (L.entry i).any (·.outage_id = o) = true ∨
        (∃ j ∈ l, ShardedLog.owns SLAResult.outage_id
          { L with entry := Function.update L.entry i none } o j = true) ↔
      ∃ j ∈ i :: l, L.owns SLAResult.outage_id o j = true := by
  simp only [List.mem_cons, exists_eq_or_imp]
  constructor
  · rintro (h | ⟨j, hj, h⟩)
    · exact .inl h
    · have hji : j ≠ i := fun e => by simp [ShardedLog.owns, e] at h
      exact .inr ⟨j, hj, by simpa [ShardedLog.owns, hji] using h⟩
  · rintro (h | ⟨j, hj, h⟩)
    · exact .inl h
    · by_cases hji : j = i
      · exact .inl (by simpa [ShardedLog.owns, hji] using h)
      · exact .inr ⟨j, hj, by simpa [ShardedLog.owns, hji] using h⟩

theorem dropEntries_leaves {l : List Nat} {touched touched' : List Symbol} {f : Frame Address}
    {env env' : ContractEnv} (hr : (l.foldlM dropEntry touched).Returns f env touched' env') :
    Leaves env env' (without (shards env.storage) l) ∧
      ∀ o, o ∈ touched' ↔ o ∈ touched ∨
        ∃ i ∈ l, (shards env.storage).owns SLAResult.outage_id o i = true := by
  induction l generalizing touched env with
  | nil =>
    simp only [List.foldlM_nil, Prog.returns_pure] at hr
    obtain ⟨rfl, rfl⟩ := hr
    rw [without_nil]
    exact ⟨.refl _, fun o => by simp⟩
  | cons i l ih =>
    simp only [List.foldlM_cons, dropEntry, Contract.get, Contract.remove, Prog.returns_bind_assoc,
      Prog.returns_get_bind, Prog.returns_remove_bind, Prog.returns_pure_bind] at hr
    obtain ⟨hlog, howned⟩ := ih hr
    simp only [Env.remove_storage, shards_remove_entry] at hlog howned
    rw [without_cons] at hlog
    refine ⟨(Leaves.remove env rfl).trans hlog, ?_⟩
    intro o
    rw [howned, mem_noteOwner, or_assoc, ← owner_of_cons]
    rfl

/-- The log once the listed outages keep only their indices from `kept_from` on. -/
def reindexed (L : ShardedLog SLAResult Symbol) (kept_from : Nat) (l : List Symbol) :
    ShardedLog SLAResult Symbol :=
  { L with index := fun o => if o ∈ l then (L.index o).filter (kept_from ≤ ·) else L.index o }

theorem keepIndices_leaves {kept_from : Nat} {l : List Symbol} {f : Frame Address}
    {env env' : ContractEnv} {u : PUnit}
    (hr : (l.forM (keepIndicesFrom kept_from)).Returns f env u env') :
    Leaves env env' (reindexed (shards env.storage) kept_from l) := by
  induction l generalizing env with
  | nil =>
    obtain ⟨-, rfl⟩ := (Prog.returns_pure ..).mp hr
    exact ⟨ShardedLog.ext rfl rfl (fun _ => rfl) (fun _ => by simp [reindexed]), rfl,
      fun _ _ => rfl⟩
  | cons p l ih =>
    simp only [List.forM_eq_forM, List.forM_cons, keepIndicesFrom, Contract.ask, Contract.set,
      Prog.returns_bind_assoc, Prog.returns_ask_bind, Prog.returns_set_bind] at hr
    have hset := Leaves.set env (k := .histIndex p)
      ((entryIndicesForOutage env.storage p).filter (kept_from ≤ ·)) rfl
    obtain ⟨hlog, hevents, hother⟩ := hset.trans (ih hr)
    refine ⟨hlog.trans (ShardedLog.ext ?_ ?_ ?_ ?_), hevents, hother⟩
    · simp [reindexed]
    · simp [reindexed]
    · intro i
      simp [reindexed]
    · intro o
      by_cases ho : o = p
      · subst ho
        by_cases hl : o ∈ l <;> simp [hl, reindexed]
      · simp [ho, reindexed]

theorem pruneOldest_total (keep_count : Nat) : (pruneOldest keep_count).Total :=
  .bind (.ask _) fun _ => .bind (.ask _) fun _ => .ite _ (.pure _) <|
    .bind (.foldlM (fun _ _ => .bind (.get _) fun _ => .bind (.remove _) fun _ => .pure _) _ _)
      fun _ => .bind (.forM (fun _ => .bind (.ask _) fun _ => .set _ _) _) fun _ =>
        .bind (.set _ _) fun _ => .bind (.set _ _) fun _ => .pure _

/-- `prune_oldest` drops the log to the kept count and returns how many entries it dropped. -/
theorem pruneOldest_leaves {keep_count removed : Nat} {f : Frame Address} {env env' : ContractEnv}
    (hr : (pruneOldest keep_count).Returns f env removed env') :
    Leaves env env' ((shards env.storage).dropTo SLAResult.outage_id keep_count) ∧
      removed = len env.storage - keep_count ∧
      (env'.storage .historyLen = env.storage .historyLen ∧ keep_count ≥ len env.storage ∨
        env'.storage .historyLen = some keep_count ∧ keep_count < len env.storage) := by
  simp only [pruneOldest, Contract.ask, Contract.set, Prog.returns_ask_bind, Prog.returns_ite,
    Prog.returns_pure] at hr
  rcases hr with ⟨hkeep, rfl, rfl⟩ | ⟨hkeep, hr⟩
  · have hdrop : (shards env'.storage).dropTo SLAResult.outage_id keep_count =
        shards env'.storage := if_pos hkeep
    rw [hdrop]
    exact ⟨.refl _, by simp only [len]; omega, .inl ⟨rfl, hkeep⟩⟩
  · obtain ⟨touched, env₁, hfold, hr⟩ := (Prog.returns_bind ..).mp hr
    obtain ⟨_, env₂, hidx, hr⟩ := (Prog.returns_bind ..).mp hr
    simp only [Prog.returns_set_bind, Prog.returns_pure] at hr
    obtain ⟨rfl, rfl⟩ := hr
    obtain ⟨hlog₁, htouched⟩ := dropEntries_leaves hfold
    have hlog₂ := hlog₁.trans (keepIndices_leaves hidx)
    have hlt : keep_count < len env.storage := by simp only [len]; omega
    have hdrop : (shards env.storage).dropTo SLAResult.outage_id keep_count =
        (shards env.storage).dropBelow SLAResult.outage_id keep_count :=
      if_neg (Nat.not_le.mpr hlt)
    have hmem : ∀ o, o ∈ touched ↔
        (shards env.storage).touched SLAResult.outage_id keep_count o = true := by
      intro o
      rw [htouched, ShardedLog.touched, List.any_eq_true]
      simp [ShardedLog.keptFrom]
    refine ⟨⟨?_, hlog₂.events, ?_⟩, by simp only [len]; omega, .inr ⟨by simp, hlt⟩⟩
    · simp only [Env.set_storage, shards_set_len, shards_set_head, hlog₂.log, hlog₁.log, hdrop]
      refine ShardedLog.ext rfl rfl ?_ ?_
      · intro i
        have hle : head env.storage ≤ tail env.storage - keep_count := by
          simp only [len] at hlt; omega
        by_cases hi : head env.storage ≤ i ∧ i < tail env.storage - keep_count <;>
          simp [reindexed, without, ShardedLog.dropBelow, ShardedLog.keptFrom,
            Nat.add_sub_cancel' hle, hi]
      · intro o
        by_cases ho : (shards env.storage).touched SLAResult.outage_id keep_count o <;>
          simp [reindexed, without, ShardedLog.dropBelow, ShardedLog.keptFrom, hmem, ho]
    · intro k hk
      rw [← hlog₂.other k hk]
      exact (set_historyKey rfl hk).trans (set_historyKey rfl hk)

/-! ## Rebuild -/

theorem clearEntries_leaves {l : List Nat} {seen seen' : List Symbol} {f : Frame Address}
    {env env' : ContractEnv} (hr : (l.foldlM clearEntry seen).Returns f env seen' env') :
    Leaves env env' (without (shards env.storage) l) ∧
      ∀ o, o ∈ seen' ↔ o ∈ seen ∨
        ∃ i ∈ l, (shards env.storage).owns SLAResult.outage_id o i = true := by
  induction l generalizing seen env with
  | nil =>
    simp only [List.foldlM_nil, Prog.returns_pure] at hr
    obtain ⟨rfl, rfl⟩ := hr
    rw [without_nil]
    exact ⟨.refl _, fun o => by simp⟩
  | cons i l ih =>
    simp only [List.foldlM_cons, clearEntry, Contract.get, Contract.remove,
      Prog.returns_bind_assoc, Prog.returns_get_bind] at hr
    cases hi : env.storage (.histEntry i) with
    | none =>
      -- an absent slot is left alone, which empties it all the same
      simp only [hi, Prog.whenSome_none, Prog.returns_pure_bind] at hr
      obtain ⟨hlog, howned⟩ := ih hr
      have hnone : Function.update (shards env.storage).entry i none =
          (shards env.storage).entry :=
        Function.update_eq_self_iff.mpr hi.symm
      have hself : { shards env.storage with
          entry := Function.update (shards env.storage).entry i none } = shards env.storage := by
        rw [hnone]
      refine ⟨by rw [← without_cons, hself]; exact hlog, ?_⟩
      intro o
      rw [howned, mem_noteOwner, or_assoc, ← owner_of_cons, hself]
      simp only [shards_entry, readEntry, hi]
    | some entry =>
      simp only [hi, Prog.whenSome_some, Prog.returns_remove_bind, Prog.returns_pure_bind] at hr
      obtain ⟨hlog, howned⟩ := ih hr
      simp only [Env.remove_storage, shards_remove_entry] at hlog howned
      rw [without_cons] at hlog
      refine ⟨(Leaves.remove env rfl).trans hlog, ?_⟩
      intro o
      rw [howned, mem_noteOwner, or_assoc, ← owner_of_cons]
      simp only [shards_entry, readEntry, hi]

/-- The log once the index lists of the listed outages are removed. -/
def unindexed (L : ShardedLog SLAResult Symbol) (l : List Symbol) : ShardedLog SLAResult Symbol :=
  { L with index := fun o => if o ∈ l then [] else L.index o }

theorem removeIndices_leaves {l : List Symbol} {f : Frame Address} {env env' : ContractEnv}
    {u : PUnit}
    (hr : (l.forM fun o => Contract.remove (.histIndex o)).Returns f env u env') :
    Leaves env env' (unindexed (shards env.storage) l) := by
  induction l generalizing env with
  | nil =>
    obtain ⟨-, rfl⟩ := (Prog.returns_pure ..).mp hr
    exact ⟨ShardedLog.ext rfl rfl (fun _ => rfl) (fun _ => by simp [unindexed]), rfl,
      fun _ _ => rfl⟩
  | cons p l ih =>
    simp only [List.forM_eq_forM, List.forM_cons, Contract.remove, Prog.returns_remove_bind] at hr
    have hremove := Leaves.remove env (k := .histIndex p) rfl
    obtain ⟨hlog, hevents, hother⟩ := hremove.trans (ih hr)
    refine ⟨hlog.trans (ShardedLog.ext ?_ ?_ ?_ ?_), hevents, hother⟩
    · simp [unindexed]
    · simp [unindexed]
    · intro i
      simp [unindexed]
    · intro o
      by_cases ho : o = p
      · subst ho; simp [unindexed]
      · simp [ho, unindexed]

/-- The log once the entries are written from slot `n` on. -/
def placed (L : ShardedLog SLAResult Symbol) (n : Nat) (entries : List SLAResult) :
    ShardedLog SLAResult Symbol :=
  { L with
    entry := fun i => if n ≤ i ∧ i < n + entries.length then entries[i - n]? else L.entry i }

theorem placed_cons (L : ShardedLog SLAResult Symbol) (n : Nat) (entry : SLAResult)
    (entries : List SLAResult) :
    placed { L with entry := Function.update L.entry n (some entry) } (n + 1) entries =
      placed L n (entry :: entries) := by
  refine ShardedLog.ext rfl rfl ?_ (fun _ => rfl)
  intro i
  by_cases hi : i = n
  · subst hi; simp [placed]
  · by_cases hin : n + 1 ≤ i ∧ i < n + 1 + entries.length
    · have hin' : n ≤ i ∧ i < n + (entries.length + 1) := by omega
      simp only [placed, List.length_cons, if_pos hin, if_pos hin']
      rw [show i - n = i - (n + 1) + 1 by omega, List.getElem?_cons_succ]
    · have hin' : ¬ (n ≤ i ∧ i < n + (entries.length + 1)) := by omega
      simp only [placed, List.length_cons, if_neg hin, if_neg hin', Function.update_of_ne hi]

theorem placeEntries_leaves {entries : List SLAResult} {m m' : OrdMap Symbol (List Nat)}
    {n n' : Nat} {f : Frame Address} {env env' : ContractEnv}
    (hr : (entries.foldlM placeEntry (m, n)).Returns f env (m', n') env')
    (hfit : n + entries.length < 2 ^ 32) :
    Leaves env env' (placed (shards env.storage) n entries) ∧
      ∀ o, m'.get o =
        if o ∈ entries.map SLAResult.outage_id then
          some ((m.get o).getD [] ++ ShardedLog.positions SLAResult.outage_id o n entries)
        else m.get o := by
  induction entries generalizing m n env with
  | nil =>
    simp only [List.foldlM_nil, Prog.returns_pure, Prod.mk.injEq] at hr
    obtain ⟨⟨rfl, rfl⟩, rfl⟩ := hr
    refine ⟨⟨ShardedLog.ext rfl rfl ?_ (fun _ => rfl), rfl, fun _ _ => rfl⟩, fun o => by simp⟩
    intro i
    have hempty : ¬ (n' ≤ i ∧ i < n' + ([] : List SLAResult).length) := by simp
    simp only [placed, if_neg hempty]
  | cons entry entries ih =>
    simp only [List.length_cons] at hfit
    simp only [List.foldlM_cons, placeEntry, Contract.set, Prog.returns_bind_assoc,
      Prog.returns_set_bind, Prog.returns_pure_bind,
      wrap_of_lt (show n + 1 < 2 ^ 32 by omega)] at hr
    obtain ⟨hlog, hmap⟩ := ih hr (by omega)
    simp only [Env.set_storage, shards_set_entry] at hlog
    rw [placed_cons] at hlog
    refine ⟨(Leaves.set env _ rfl).trans hlog, ?_⟩
    intro o
    rw [hmap, OrdMap.get_set]
    by_cases ho : o = entry.outage_id
    · subst ho
      by_cases hmem : entry.outage_id ∈ entries.map SLAResult.outage_id
      · simp [ShardedLog.positions, hmem]
      · simp [ShardedLog.positions, hmem, ShardedLog.positions_eq_nil _ hmem]
    · simp [ShardedLog.positions, ho, Ne.symm ho]

/-- Setting the index list of each entry of a list of outages without repetition. -/
theorem setIndices_leaves {l : List (Symbol × List Nat)} {f : Frame Address}
    {env env' : ContractEnv} {u : PUnit}
    (hr : (l.forM fun e => Contract.set (.histIndex e.1) e.2).Returns f env u env')
    (hl : l.Pairwise (fun a b => a.1 < b.1)) :
    Leaves env env'
      { shards env.storage with
        index := fun o =>
          ((l.find? (·.1 = o)).map Prod.snd).getD ((shards env.storage).index o) } := by
  induction l generalizing env with
  | nil =>
    obtain ⟨-, rfl⟩ := (Prog.returns_pure ..).mp hr
    exact ⟨ShardedLog.ext rfl rfl (fun _ => rfl) (fun _ => by simp), rfl, fun _ _ => rfl⟩
  | cons e l ih =>
    obtain ⟨hlt, hl⟩ := List.pairwise_cons.mp hl
    simp only [List.forM_eq_forM, List.forM_cons, Contract.set, Prog.returns_set_bind] at hr
    have hset := Leaves.set env (k := .histIndex e.1) e.2 rfl
    obtain ⟨hlog, hevents, hother⟩ := hset.trans (ih hr hl)
    refine ⟨hlog.trans (ShardedLog.ext ?_ ?_ ?_ ?_), hevents, hother⟩
    · simp
    · simp
    · intro i
      simp
    · intro o
      by_cases ho : e.1 = o
      · subst ho
        have hnone : l.find? (·.1 = e.1) = none := by
          rw [List.find?_eq_none]
          intro e' he'
          simpa using (ne_of_gt (hlt e' he'))
        simp [hnone]
      · simp [ho, Ne.symm ho]

theorem rebuildHistory_total (entries : List SLAResult) : (rebuildHistory entries).Total :=
  .bind (.ask _) fun _ => .bind (.ask _) fun _ =>
    .bind (.foldlM (fun _ _ => .bind (.get _) fun _ =>
      .bind (.whenSome _ fun _ => .remove _) fun _ => .pure _) _ _) fun _ =>
    .bind (.forM (fun _ => .remove _) _) fun _ =>
    .bind (.foldlM (fun _ _ => .bind (.set _ _) fun _ => .pure _) _ _) fun _ =>
    .bind (.forM (fun _ => .set _ _) _) fun _ =>
    .bind (.set _ _) fun _ => .bind (.set _ _) fun _ => .set _ _

/-- `rebuild_history` replaces the retained entries, where the counters do not overflow. -/
theorem rebuildHistory_leaves {entries : List SLAResult} {f : Frame Address}
    {env env' : ContractEnv} {u : Unit} (hr : (rebuildHistory entries).Returns f env u env')
    (hfit : head env.storage + entries.length < 2 ^ 32) :
    Leaves env env' ((shards env.storage).rebuild SLAResult.outage_id entries) ∧
      env'.storage .historyLen = some entries.length := by
  simp only [rebuildHistory, Contract.ask, Prog.returns_ask_bind] at hr
  obtain ⟨seen, env₁, hclear, hr⟩ := (Prog.returns_bind ..).mp hr
  obtain ⟨_, env₂, hremove, hr⟩ := (Prog.returns_bind ..).mp hr
  obtain ⟨⟨m, n⟩, env₃, hplace, hr⟩ := (Prog.returns_bind ..).mp hr
  obtain ⟨_, env₄, hindex, hr⟩ := (Prog.returns_bind ..).mp hr
  simp only [Contract.set, Prog.returns_set_bind, Prog.returns_set] at hr
  obtain ⟨hlog₁, hseen⟩ := clearEntries_leaves hclear
  have hlog₂ := hlog₁.trans (removeIndices_leaves hremove)
  obtain ⟨hlog₃, hmap⟩ := placeEntries_leaves hplace hfit
  have hlog₄ := (hlog₂.trans hlog₃).trans (setIndices_leaves hindex m.ordered)
  have htail : saturatingAdd 32 (head env.storage) entries.length =
      head env.storage + entries.length := by
    simp only [saturatingAdd, unsignedMax]
    omega
  have hmem : ∀ o, o ∈ seen ↔
      (shards env.storage).window.any ((shards env.storage).owns SLAResult.outage_id o) = true := by
    intro o
    rw [hseen, List.any_eq_true]
    simp only [ShardedLog.window, shards_head, shards_len, len, List.not_mem_nil, false_or]
  subst hr
  refine ⟨⟨?_, hlog₄.events, ?_⟩, by simp⟩
  · simp only [Env.set_storage, shards_set_len, shards_set_head, shards_set_tail, hlog₄.log,
      hlog₃.log, hlog₂.log, hlog₁.log, htail]
    refine ShardedLog.ext rfl rfl ?_ ?_
    · intro i
      have hwindow : i ∈ List.range' (head env.storage) (tail env.storage - head env.storage) ↔
          head env.storage ≤ i ∧ i < tail env.storage := by
        rw [List.mem_range'_1]
        omega
      simp only [placed, unindexed, without, ShardedLog.rebuild, shards_head, shards_tail]
      by_cases hi : head env.storage ≤ i ∧ i < head env.storage + entries.length
      · simp [hi]
      · by_cases hold : head env.storage ≤ i ∧ i < tail env.storage <;> simp [hi, hold, hwindow]
    · intro o
      have hget : (m.entries.find? (·.1 = o)).map Prod.snd = m.get o := rfl
      simp only [hget, hmap]
      by_cases ho : o ∈ entries.map SLAResult.outage_id
      · simp only [if_pos ho, ShardedLog.rebuild, OrdMap.get_empty, Option.getD_none,
          Option.getD_some, List.nil_append, shards_head]
      · simp only [if_neg ho, OrdMap.get_empty, ShardedLog.rebuild, placed, unindexed, without]
        by_cases hs : o ∈ seen
        · simp [hs, (hmem o).mp hs]
        · simp [hs, mt (hmem o).mpr hs]
  · intro k hk
    rw [← hlog₄.other k hk]
    exact (set_historyKey rfl hk).trans ((set_historyKey rfl hk).trans (set_historyKey rfl hk))

end ApexChainx.History
