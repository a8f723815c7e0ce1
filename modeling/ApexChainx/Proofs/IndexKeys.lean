import Mathlib.Data.Set.Card
import ApexChainx.Proofs.Calculation
import ApexChainx.Proofs.HistoryInvariant

/-!
# The keys of the history

A rebuild of the history removes the index key of an outage that it leaves without an entry; an
append that evicts the last entry of an outage, and a trim that drops it, write an empty index
list instead. So the index keys are those of the outages that own a retained entry exactly as
long as no call of the run does so, and none initializes the contract again over retained entries
(`keys_bounded_iff`).
-/

namespace ApexChainx

open Host Misc

namespace History

/-! ## Index keys after an operation -/

/-- The outage has an index key. -/
def Indexed (s : Storage) (o : Symbol) : Prop := (s (.histIndex o)).isSome

/-- The outage of every stored entry has an index key. -/
def Covered (s : Storage) : Prop :=
  ∀ i entry, s (.histEntry i) = some entry → Indexed s entry.outage_id

section Indexed

variable {s s' : Storage} {o p : Symbol}

theorem indexed_congr (h : s' (.histIndex o) = s (.histIndex o)) :
    Indexed s' o ↔ Indexed s o := by
  rw [Indexed, h]
  rfl

theorem indexed_set_index (indices : List Nat) :
    Indexed (s.set (.histIndex p) indices) o ↔ o = p ∨ Indexed s o := by
  by_cases h : o = p
  · subst h
    simp [Indexed]
  · simp [Indexed, h]

theorem indexed_remove_index : Indexed (s.remove (.histIndex p)) o ↔ o ≠ p ∧ Indexed s o := by
  by_cases h : o = p
  · subst h
    simp [Indexed]
  · simp [Indexed, h]

/-- A write of another key. -/
theorem indexed_set_other {k : StorageKey} {v : k.Val} (h : ∀ o, k ≠ .histIndex o) :
    Indexed (s.set k v) o ↔ Indexed s o :=
  indexed_congr (Store.set_other _ _ fun e => h o e.symm)

/-- The removal of another key. -/
theorem indexed_remove_other {k : StorageKey} (h : ∀ o, k ≠ .histIndex o) :
    Indexed (s.remove k) o ↔ Indexed s o :=
  indexed_congr (Store.remove_other _ fun e => h o e.symm)

end Indexed

/-- The keys of the entries. -/
def entryKeys : Set StorageKey := {k | ∃ i, k = .histEntry i}

theorem indexed_of_writes {α : Type} {m : Contract α} (hm : Prog.Writes entryKeys m)
    {f : Frame Address} {env env' : ContractEnv} {a : α} (hr : m.Returns f env a env')
    (o : Symbol) : Indexed env'.storage o ↔ Indexed env.storage o :=
  indexed_congr (hm f env a env' hr _ (by simp [entryKeys]))

/-- Dropping the oldest entry writes the index key of its outage, which is there. -/
theorem dropOldest_indexed {h : Nat} {f : Frame Address} {env env' : ContractEnv} {u : Unit}
    (hr : (dropOldest h).Returns f env u env')
    (hcovered : ∀ d, env.storage (.histEntry h) = some d → Indexed env.storage d.outage_id)
    (o : Symbol) : Indexed env'.storage o ↔ Indexed env.storage o := by
  simp only [dropOldest, Contract.get, Contract.remove, Prog.returns_get_bind,
    Prog.returns_remove_bind] at hr
  cases hd : env.storage (.histEntry h) with
  | none =>
    simp only [hd, Prog.whenSome_none, Prog.returns_pure] at hr
    obtain ⟨-, rfl⟩ := hr
    exact indexed_remove_other fun _ => by simp
  | some d =>
    simp only [hd, Prog.whenSome_some, Contract.ask, Contract.set, Prog.returns_ask_bind,
      Prog.returns_set] at hr
    subst hr
    rw [Env.set_storage, indexed_set_index, Env.remove_storage,
      indexed_remove_other fun _ => by simp]
    constructor
    · rintro (rfl | h)
      · exact hcovered d hd
      · exact h
    · exact .inr

/-- An append writes the index key of the new entry. -/
theorem appendEntry_indexed {entry : SLAResult} {limit : Nat} {indices : List Nat}
    {f : Frame Address} {env env' : ContractEnv} {u : Unit}
    (hr : (appendEntry entry limit indices).Returns f env u env')
    (hcovered : Covered env.storage) (o : Symbol) :
    Indexed env'.storage o ↔ o = entry.outage_id ∨ Indexed env.storage o := by
  simp only [appendEntry, Contract.ask, Contract.set, Prog.returns_ask_bind,
    Prog.returns_set_bind, Prog.returns_ite, Prog.returns_set] at hr
  generalize henv₁ : ((env.set (.histEntry (tail env.storage)) entry).set
    (.histIndex entry.outage_id) (indices ++ [tail env.storage])).set .histTail
    (wrap 32 (tail env.storage + 1)) = env₁ at hr
  have happ : ∀ o, Indexed env₁.storage o ↔ o = entry.outage_id ∨ Indexed env.storage o := by
    intro o
    rw [← henv₁, Env.set_storage, indexed_set_other fun _ => by simp, Env.set_storage,
      indexed_set_index, Env.set_storage, indexed_set_other fun _ => by simp]
  rcases hr with ⟨-, hr⟩ | ⟨-, rfl⟩
  · obtain ⟨_, env₂, hdrop, henv'⟩ := (Prog.returns_bind ..).mp hr
    simp only [Prog.returns_set_bind, Prog.returns_set] at henv'
    rw [henv', Env.set_storage, indexed_set_other fun _ => by simp, Env.set_storage,
      indexed_set_other fun _ => by simp, dropOldest_indexed hdrop ?_, happ]
    intro d hd
    rw [happ]
    rw [← henv₁] at hd
    simp only [Env.set_storage] at hd
    rw [Store.set_other _ _ (by simp), Store.set_other _ _ (by simp)] at hd
    by_cases hslot : head env.storage = tail env.storage
    · rw [hslot, Store.set_same] at hd
      cases hd
      exact .inl rfl
    · rw [Store.set_other _ _ (by simpa using hslot)] at hd
      exact .inr (hcovered _ d hd)
  · rw [Env.set_storage, indexed_set_other fun _ => by simp, happ]

/-- A loop whose body writes the index key of one outage writes those of all the outages it is run
for. -/
theorem forM_indexed {β : Type} {body : β → Contract PUnit} {g : β → Symbol} {o : Symbol}
    (hbody : ∀ b f env env' u, (body b).Returns f env u env' →
      (Indexed env'.storage o ↔ o = g b ∨ Indexed env.storage o))
    {l : List β} {f : Frame Address} {env env' : ContractEnv} {u : PUnit}
    (hr : (l.forM body).Returns f env u env') :
    Indexed env'.storage o ↔ o ∈ l.map g ∨ Indexed env.storage o := by
  induction l generalizing env with
  | nil =>
    obtain ⟨-, rfl⟩ := (Prog.returns_pure ..).mp hr
    simp
  | cons b l ih =>
    obtain ⟨_, mid, hfirst, hrest⟩ := (Prog.returns_bind ..).mp hr
    rw [ih hrest, hbody _ _ _ _ _ hfirst, List.map_cons, List.mem_cons]
    tauto

/-- A trim writes the index keys of the outages it drops entries of, which are there. -/
theorem keepIndices_indexed {kept_from : Nat} {l : List Symbol} {f : Frame Address}
    {env env' : ContractEnv} {u : PUnit}
    (hr : (l.forM (keepIndicesFrom kept_from)).Returns f env u env') (o : Symbol) :
    Indexed env'.storage o ↔ o ∈ l ∨ Indexed env.storage o := by
  have hall := forM_indexed (g := id) (o := o) ?_ hr
  · rwa [List.map_id] at hall
  · intro p f env env' u hp
    simp only [keepIndicesFrom, Contract.ask, Contract.set, Prog.returns_ask_bind,
      Prog.returns_set] at hp
    rw [hp, Env.set_storage, indexed_set_index, id]

theorem pruneOldest_indexed {keep_count removed : Nat} {f : Frame Address}
    {env env' : ContractEnv} (hr : (pruneOldest keep_count).Returns f env removed env')
    (hcovered : Covered env.storage) (o : Symbol) :
    Indexed env'.storage o ↔ Indexed env.storage o := by
  simp only [pruneOldest, Contract.ask, Contract.set, Prog.returns_ask_bind, Prog.returns_ite,
    Prog.returns_pure] at hr
  rcases hr with ⟨-, -, rfl⟩ | ⟨-, hr⟩
  · rfl
  · obtain ⟨touched, env₁, hfold, hr⟩ := (Prog.returns_bind ..).mp hr
    obtain ⟨_, env₂, hidx, hr⟩ := (Prog.returns_bind ..).mp hr
    simp only [Prog.returns_set_bind, Prog.returns_pure] at hr
    obtain ⟨-, rfl⟩ := hr
    have hwrites : Prog.Writes entryKeys
        ((List.range' (head env.storage)
          (tail env.storage - keep_count - head env.storage)).foldlM dropEntry []) :=
      .foldlM (fun _ _ => .bind (.get _) fun _ => .bind (.remove (by simp [entryKeys])) fun _ =>
        .pure _) _ _
    rw [Env.set_storage, indexed_set_other fun _ => by simp, Env.set_storage,
      indexed_set_other fun _ => by simp, keepIndices_indexed hidx,
      indexed_of_writes hwrites hfold]
    refine or_iff_right_of_imp ?_
    intro ho
    rcases ((dropEntries_leaves hfold).2 o).mp ho with h | ⟨i, -, howns⟩
    · cases h
    · simp only [ShardedLog.owns, shards_entry, Option.any_eq_true, decide_eq_true_eq] at howns
      obtain ⟨entry, hentry, rfl⟩ := howns
      exact hcovered i entry hentry

theorem removeIndices_indexed {l : List Symbol} {f : Frame Address} {env env' : ContractEnv}
    {u : PUnit}
    (hr : (l.forM fun o => Contract.remove (.histIndex o)).Returns f env u env') (o : Symbol) :
    Indexed env'.storage o ↔ o ∉ l ∧ Indexed env.storage o := by
  induction l generalizing env with
  | nil =>
    obtain ⟨-, rfl⟩ := (Prog.returns_pure ..).mp hr
    simp
  | cons p l ih =>
    simp only [List.forM_eq_forM, List.forM_cons, Contract.remove, Prog.returns_remove_bind] at hr
    rw [ih hr, Env.remove_storage, indexed_remove_index, List.mem_cons]
    tauto

theorem setIndices_indexed {l : List (Symbol × List Nat)} {f : Frame Address}
    {env env' : ContractEnv} {u : PUnit}
    (hr : (l.forM fun e => Contract.set (.histIndex e.1) e.2).Returns f env u env')
    (o : Symbol) :
    Indexed env'.storage o ↔ o ∈ l.map Prod.fst ∨ Indexed env.storage o := by
  refine forM_indexed (g := Prod.fst) ?_ hr
  intro e f env env' u he
  obtain rfl := (Prog.returns_set ..).mp he
  rw [Env.set_storage, indexed_set_index]

/-- A rebuild writes the index keys of the outages it stores, and removes those of the other
outages it dropped. -/
theorem rebuildHistory_indexed {entries : List SLAResult} {f : Frame Address}
    {env env' : ContractEnv} {u : Unit} (hr : (rebuildHistory entries).Returns f env u env')
    (hfit : head env.storage + entries.length < 2 ^ 32) (o : Symbol) :
    Indexed env'.storage o ↔ o ∈ entries.map SLAResult.outage_id ∨
      (∀ i ∈ (shards env.storage).window, (shards env.storage).owns SLAResult.outage_id o i =
        false) ∧ Indexed env.storage o := by
  simp only [rebuildHistory, Contract.ask, Prog.returns_ask_bind] at hr
  obtain ⟨seen, env₁, hclear, hr⟩ := (Prog.returns_bind ..).mp hr
  obtain ⟨_, env₂, hremove, hr⟩ := (Prog.returns_bind ..).mp hr
  obtain ⟨⟨m, n⟩, env₃, hplace, hr⟩ := (Prog.returns_bind ..).mp hr
  obtain ⟨_, env₄, hindex, hr⟩ := (Prog.returns_bind ..).mp hr
  simp only [Contract.set, Prog.returns_set_bind, Prog.returns_set] at hr
  have hclears : Prog.Writes entryKeys
      ((List.range' (head env.storage) (tail env.storage - head env.storage)).foldlM clearEntry
        []) :=
    .foldlM (fun _ _ => .bind (.get _) fun _ =>
      .bind (.whenSome _ fun _ => .remove (by simp [entryKeys])) fun _ => .pure _) _ _
  have hplaces : Prog.Writes entryKeys (entries.foldlM placeEntry (OrdMap.empty, head env.storage))
      := .foldlM (fun _ _ => .bind (.set (by simp [entryKeys]) _) fun _ => .pure _) _ _
  have hseen : o ∉ seen ↔ ∀ i ∈ (shards env.storage).window,
      (shards env.storage).owns SLAResult.outage_id o i = false := by
    rw [(clearEntries_leaves hclear).2]
    simp only [List.not_mem_nil, false_or, not_exists, not_and, Bool.not_eq_true]
    rfl
  have hmap := (placeEntries_leaves hplace hfit).2 o
  have hkeys : o ∈ m.entries.map Prod.fst ↔ o ∈ entries.map SLAResult.outage_id := by
    rw [show m.entries.map Prod.fst = m.keys from rfl, OrdMap.mem_keys, hmap]
    by_cases h : o ∈ entries.map SLAResult.outage_id <;> simp [h]
  subst hr
  rw [Env.set_storage, indexed_set_other fun _ => by simp, Env.set_storage,
    indexed_set_other fun _ => by simp, Env.set_storage, indexed_set_other fun _ => by simp,
    setIndices_indexed hindex, hkeys, indexed_of_writes hplaces hplace,
    removeIndices_indexed hremove, indexed_of_writes hclears hclear, hseen]

end History

/-! ## Index keys after a call -/

section Calls

variable {f : Frame Address} {s : Storage} {env' : ContractEnv} {u : Unit}

theorem recordDecision_indexed {severity : Symbol} {result r : SLAResult} {indices : List Nat}
    (hr : (recordDecision severity result indices).Returns f ⟨s, [], []⟩ r env')
    (hcovered : History.Covered s) (o : Symbol) :
    History.Indexed env'.storage o ↔ o = result.outage_id ∨ History.Indexed s o := by
  obtain ⟨env₁, env₂, htelemetry, happend, -, rfl⟩ := recordDecision_stages hr
  have hframe := (recordSeverityTelemetry_frame htelemetry).2
  have hindexed : ∀ o, History.Indexed env₁.storage o ↔ History.Indexed s o := fun o =>
    History.indexed_congr (hframe _ rfl)
  have hcovered₁ : History.Covered env₁.storage := by
    intro i entry hentry
    rw [hframe _ rfl] at hentry
    exact (hindexed _).mpr (hcovered i entry hentry)
  rw [Env.publish_storage, Env.publish_storage, Env.set_storage,
    History.indexed_set_other fun _ => by simp, publishAll_storage,
    History.appendEntry_indexed happend hcovered₁, hindexed]

theorem pruneHistory_indexed {caller : Address} {keep_latest : Nat}
    (h : (pruneHistory caller keep_latest).Returns f ⟨s, [], []⟩ u env')
    (hcovered : History.Covered s) (o : Symbol) :
    History.Indexed env'.storage o ↔ History.Indexed s o := by
  simp [pruneHistory] at h
  obtain ⟨-, -, -, -, h⟩ := h
  obtain ⟨removed, mid, hprune, h⟩ := (Prog.returns_bind ..).mp h
  obtain rfl := (Prog.returns_publish ..).mp h
  exact History.pruneOldest_indexed hprune hcovered o

theorem pruneHistoryByAge_indexed {caller : Address} {min_age : Nat}
    (h : (pruneHistoryByAge caller min_age).Returns f ⟨s, [], []⟩ u env')
    (some_old : (recent f s min_age).length < (History.readAllEntries s).length) (o : Symbol) :
    History.Indexed env'.storage o ↔
      o ∈ (recent f s min_age).map SLAResult.outage_id ∨
        (∀ i ∈ (History.shards s).window,
          (History.shards s).owns SLAResult.outage_id o i = false) ∧ History.Indexed s o := by
  simp only [pruneHistoryByAge, Contract.reads, Contract.failIf, Contract.ask,
    Prog.returns_reads_bind, checkVersion_eq_ok, returns_requireAdmin_bind,
    Prog.returns_timestamp_bind, Prog.returns_failIf_bind, Prog.returns_ask_bind,
    Prog.returns_ite, Contract.publish, Prog.returns_publish] at h
  obtain ⟨_, -, -, -, -, -, ⟨-, h⟩ | ⟨hnone, -⟩⟩ := h
  · obtain ⟨_, mid, hrebuild, h⟩ := (Prog.returns_bind ..).mp h
    obtain rfl := (Prog.returns_publish ..).mp h
    have hfit : History.head s + (recent f s min_age).length < 2 ^ 32 := by
      have := History.length_readAllEntries_le s
      omega
    exact History.rebuildHistory_indexed hrebuild hfit o
  · exact absurd (Nat.sub_pos_of_lt some_old) hnone

theorem setRetentionLimit_indexed {caller : Address} {limit : Nat}
    (h : (setRetentionLimit caller limit).Returns f ⟨s, [], []⟩ u env')
    (hcovered : History.Covered s) (o : Symbol) :
    History.Indexed env'.storage o ↔ History.Indexed s o := by
  simp [setRetentionLimit] at h
  obtain ⟨-, -, -, -, -, -, h⟩ := h
  obtain ⟨removed, mid, hprune, h⟩ := (Prog.returns_bind ..).mp h
  have hcovered' : History.Covered (s.set .retentionLimit limit) := by
    intro i entry hentry
    rw [Store.set_other _ _ (by simp)] at hentry
    exact (History.indexed_set_other fun _ => by simp).mpr (hcovered i entry hentry)
  have hmid : History.Indexed mid.storage o ↔ History.Indexed s o := by
    rw [History.pruneOldest_indexed hprune hcovered']
    exact History.indexed_set_other fun _ => by simp
  by_cases hremoved : 0 < removed
  · simp only [hremoved, if_true, Prog.returns_publish] at h
    rw [h]
    exact hmid
  · simp only [hremoved, if_false, Prog.returns_pure] at h
    rw [h.2]
    exact hmid

end Calls

/-! ## Leaked index keys -/

/-- The keys of the sharded history: the entries and the index lists. -/
def isShardKey : StorageKey → Bool
  | .histEntry _ | .histIndex _ => true
  | _ => false

/-- The index keys are those of the outages that own a retained entry, and there are at most
twice as many history keys as the retention limit. -/
structure KeysBounded (s : Storage) : Prop where
  indexed : ∀ o, (s (.histIndex o)).isSome ↔
    ∃ entry ∈ History.readAllEntries s, entry.outage_id = o
  bounded : {k | isShardKey k = true ∧ (s k).isSome}.encard ≤ 2 * retentionLimit s

/-- An outage of the entries is not among the outages of the kept ones. -/
def Forgets (entries kept : List SLAResult) : Prop :=
  ∃ entry ∈ entries, ∀ other ∈ kept, other.outage_id ≠ entry.outage_id

/-- The calls that leave the index key of an outage without a retained entry. -/
inductive Leaks (f : Frame Address) (s : Storage) : Call → Prop
  /-- A decision is stored, and the tail counter wraps, or the entry it evicts was the last one of
  its outage. -/
  | records {caller outage_id severity mttr cfg result}
      (submits : Submits f s caller outage_id severity mttr cfg result)
      (admits : Admits s outage_id (severityConfigHash cfg))
      (forgets : History.tail s + 1 = 2 ^ 32 ∨
        retentionLimit s < (History.readAllEntries s).length + 1 ∧
          Forgets (History.readAllEntries s ++ [result])
            (History.readAllEntries s ++ [result]).tail) :
      Leaks f s (.calculateSla caller outage_id severity mttr)
  /-- A trim keeps no entry of an outage. -/
  | prunes {caller keep_latest} (by_admin : ByAdmin f s caller)
      (forgets : Forgets (History.readAllEntries s)
        ((History.readAllEntries s).drop ((History.readAllEntries s).length - keep_latest))) :
      Leaks f s (.pruneHistory caller keep_latest)
  /-- A lower retention limit keeps no entry of an outage. -/
  | limits {caller limit} (by_admin : ByAdmin f s caller) (thawed : isConfigFrozen s = false)
      (inRange : 0 < limit ∧ limit ≤ maxHistorySize)
      (forgets : Forgets (History.readAllEntries s)
        ((History.readAllEntries s).drop ((History.readAllEntries s).length - limit))) :
      Leaks f s (.setRetentionLimit caller limit)
  /-- The contract is initialized again over retained entries. -/
  | restarts {admin operator} (absent : s .admin = none) (signed : admin ∈ f.auths)
      (consented : operator ∈ f.auths) (retained : History.readAllEntries s ≠ []) :
      Leaks f s (.initializeContract admin operator)

/-- The index keys are those of the outages that own one of the entries. -/
def Indexes (s : Storage) (entries : List SLAResult) : Prop :=
  ∀ o, History.Indexed s o ↔ ∃ entry ∈ entries, entry.outage_id = o

/-- Of the outages that have an index key, the kept entries must forget none. -/
theorem indexes_iff_not_forgets {s : Storage} {entries kept : List SLAResult}
    (h : Indexes s entries) (hkept : ∀ entry ∈ kept, entry ∈ entries) :
    Indexes s kept ↔ ¬ Forgets entries kept := by
  constructor
  · rintro hk ⟨entry, hmem, hne⟩
    obtain ⟨other, hother, he⟩ := (hk _).mp ((h _).mpr ⟨entry, hmem, rfl⟩)
    exact hne other hother he
  · intro hremembers o
    rw [h]
    constructor
    · rintro ⟨entry, hmem, rfl⟩
      by_contra hnone
      exact hremembers ⟨entry, hmem, fun other hother he => hnone ⟨other, hother, he⟩⟩
    · rintro ⟨entry, hmem, he⟩
      exact ⟨entry, hkept entry hmem, he⟩

/-- The history of a state is exact and the index keys are those of the retained entries. -/
structure Tidy (s : Storage) : Prop where
  exact : HistoryExact s
  bounded : History.tail s < 2 ^ 32
  indexes : Indexes s (History.readAllEntries s)

section Steps

variable {f : Frame Address} {s s' : Storage} {r : Reply} {evs : List Event} {env' : ContractEnv}

theorem Tidy.sound (h : Tidy s) : (History.shards s).Sound SLAResult.outage_id 32 :=
  h.exact.exact.sound h.bounded

theorem Tidy.items (h : Tidy s) : History.readAllEntries s = (History.shards s).items :=
  History.readAllEntries_eq_items h.bounded

theorem Tidy.length (h : Tidy s) : (History.readAllEntries s).length = History.len s := by
  rw [h.items]
  exact ShardedLog.length_items h.sound

theorem Tidy.covered (h : Tidy s) : History.Covered s := by
  intro i entry hentry
  have hentry' : (History.shards s).entry i = some entry := hentry
  have hwindow := ShardedLog.mem_window.mpr ((h.exact.exact.present i).mp (by simp [hentry']))
  refine (h.indexes _).mpr ⟨entry, ?_, rfl⟩
  rw [h.items]
  exact List.mem_filterMap.mpr ⟨i, hwindow, hentry'⟩

/-- An outage owns a retained slot exactly when it owns a retained entry. -/
theorem Tidy.owns_iff (h : Tidy s) (o : Symbol) :
    (∀ i ∈ (History.shards s).window,
      (History.shards s).owns SLAResult.outage_id o i = false) ↔ ¬ History.Indexed s o := by
  rw [h.indexes, h.items]
  constructor
  · rintro hnone ⟨entry, hmem, rfl⟩
    obtain ⟨i, hi, hentry⟩ := List.mem_filterMap.mp hmem
    have howns := hnone i hi
    simp [ShardedLog.owns, hentry] at howns
  · intro hnone i hi
    by_contra howns
    simp only [ShardedLog.owns, Bool.not_eq_false, Option.any_eq_true, decide_eq_true_eq] at howns
    obtain ⟨entry, hentry, rfl⟩ := howns
    exact hnone ⟨entry, List.mem_filterMap.mpr ⟨i, hi, hentry⟩, rfl⟩

theorem leaks_calculateSla_iff {caller : Address} {outage_id severity : Symbol} {mttr : Nat}
    {cfg : SLAConfig} {result : SLAResult}
    (submits : Submits f s caller outage_id severity mttr cfg result)
    (admits : Admits s outage_id (severityConfigHash cfg)) :
    Leaks f s (.calculateSla caller outage_id severity mttr) ↔
      History.tail s + 1 = 2 ^ 32 ∨
        retentionLimit s < (History.readAllEntries s).length + 1 ∧
          Forgets (History.readAllEntries s ++ [result])
            (History.readAllEntries s ++ [result]).tail := by
  constructor
  · intro hleaks
    cases hleaks with
    | records submits' _ forgets =>
      obtain rfl := Except.ok.inj (submits'.config.symm.trans submits.config)
      obtain rfl := Except.ok.inj (submits'.computed.symm.trans submits.computed)
      exact forgets
  · exact .records submits admits

/-- Storing a decision keeps the index keys exact unless it leaks one. -/
theorem Tidy.indexes_recorded (h : Tidy s) {caller : Address} {outage_id severity : Symbol}
    {mttr : Nat} {cfg : SLAConfig} {result : SLAResult}
    (submits : Submits f s caller outage_id severity mttr cfg result)
    (admits : Admits s outage_id (severityConfigHash cfg)) (change : Recorded s result env'.storage)
    (hreturns : (calculateSla caller outage_id severity mttr).Returns f ⟨s, [], []⟩ result env') :
    Indexes env'.storage (History.shards env'.storage).items ↔
      ¬ Leaks f s (.calculateSla caller outage_id severity mttr) := by
  rw [Prog.Returns, submits.calculateSla_fresh admits] at hreturns
  have hall : Indexes env'.storage (History.readAllEntries s ++ [result]) := by
    intro o
    rw [recordDecision_indexed hreturns h.covered, h.indexes]
    simp only [List.mem_append, List.mem_singleton, or_and_right, exists_or, exists_eq_left]
    rw [or_comm, eq_comm (a := o)]
  rw [leaks_calculateSla_iff submits admits, change.log]
  by_cases hwraps : History.tail s + 1 = 2 ^ 32
  · have hwrapped : ¬ ((History.shards s).head ≤ (History.shards s).tail ∧
        (History.shards s).tail + 1 < 2 ^ 32) := by simp [hwraps]
    have hitems : ((History.shards s).record SLAResult.outage_id 32 (retentionLimit s)
        result).items = [] := ShardedLog.items_record_wrapped h.bounded hwrapped _ _
    rw [hitems]
    refine iff_of_false ?_ fun hno => hno (.inl hwraps)
    intro hnone
    obtain ⟨entry, hmem, -⟩ := (hnone _).mp ((hall _).mpr ⟨result, by simp, rfl⟩)
    cases hmem
  · have hroom : (History.shards s).tail + 1 < 2 ^ 32 := by
      have := h.bounded
      simp only [History.shards_tail]
      omega
    rw [ShardedLog.items_record h.sound h.exact.exact.ordered hroom, ← h.items, History.shards_len,
      ← h.length]
    by_cases hover : (History.readAllEntries s).length + 1 > retentionLimit s
    · rw [if_pos hover, indexes_iff_not_forgets hall fun _ => List.mem_of_mem_tail]
      simp only [hwraps, false_or, gt_iff_lt.mp hover, true_and]
    · rw [if_neg hover]
      refine iff_of_true hall ?_
      rintro (hwraps' | ⟨hover', -⟩)
      · exact hwraps hwraps'
      · exact hover hover'

/-- So does a trim to the newest entries. -/
theorem Tidy.indexes_trimmed (h : Tidy s) {keep : Nat} {leaks : Prop}
    (hlog : History.shards s' = (History.shards s).dropTo SLAResult.outage_id keep)
    (hindexed : ∀ o, History.Indexed s' o ↔ History.Indexed s o)
    (hleaks : leaks ↔ Forgets (History.readAllEntries s)
      ((History.readAllEntries s).drop ((History.readAllEntries s).length - keep))) :
    Indexes s' (History.shards s').items ↔ ¬ leaks := by
  have hall : Indexes s' (History.readAllEntries s) := fun o => (hindexed o).trans (h.indexes o)
  rw [hleaks, hlog, ShardedLog.items_dropTo h.sound, ← h.items, History.shards_len, ← h.length,
    indexes_iff_not_forgets hall fun _ => List.mem_of_mem_drop]

/-- Every call keeps the index keys exact unless it leaks one. -/
theorem Tidy.indexes_iff (h : Tidy s) (hc : Current s) {c : Call}
    (hreturns : (exec c).Returns f ⟨s, [], []⟩ r env') :
    Indexes env'.storage (History.shards env'.storage).items ↔ ¬ Leaks f s c := by
  have he := returns_effect hc hreturns
  by_cases hon : c.onHistory = false
  · refine iff_of_true ?_ ?_
    · intro o
      have htouched : c.touches (.histIndex o) = false := Call.touches_history hon (.inl rfl)
      rw [History.indexed_congr (he.frame htouched), he.shards_eq hon, ← h.items]
      exact h.indexes o
    · intro hleaks
      cases hleaks <;> cases hon
  · generalize hs' : env'.storage = s' at he ⊢
    generalize env'.events = evs at he
    cases he <;> simp only [Call.onHistory, not_true_eq_false] at hon
    case initialized admin operator absent signed consented =>
      have hitems : (History.shards (initializedStorage s admin operator)).items = [] := by
        simp [ShardedLog.items, ShardedLog.window, History.len, History.tail, History.head,
          initializedStorage]
      have hall : Indexes (initializedStorage s admin operator) (History.readAllEntries s) :=
        fun o => (History.indexed_congr (by simp [initializedStorage])).trans (h.indexes o)
      rw [hitems, indexes_iff_not_forgets hall fun _ hmem => absurd hmem List.not_mem_nil]
      refine not_congr ⟨?_, ?_⟩
      · rintro ⟨entry, hmem, -⟩
        exact .restarts absent signed consented (List.ne_nil_of_mem hmem)
      · intro hleaks
        cases hleaks with
        | restarts _ _ _ retained =>
          obtain ⟨entry, hmem⟩ := List.exists_mem_of_ne_nil _ retained
          exact ⟨entry, hmem, by simp⟩
    case replayed caller outage_id severity mttr cfg _ prev by_operator bound config computed latest
        generation _ =>
      refine iff_of_true (h.items ▸ h.indexes) ?_
      intro hleaks
      cases hleaks with
      | records submits admits _ =>
        obtain rfl := Except.ok.inj (submits.config.symm.trans config)
        exact (admits prev latest).1 generation
    case recorded caller outage_id severity mttr cfg result by_operator bound config computed admits
        change =>
      obtain ⟨_, mid, hm, hpure⟩ := (Prog.returns_bind ..).mp hreturns
      obtain ⟨hreply, rfl⟩ := (Prog.returns_pure ..).mp hpure
      cases hreply
      subst hs'
      exact h.indexes_recorded ⟨by_operator, bound, config, computed⟩ admits change hm
    case pruned caller keep by_admin change _ =>
      obtain ⟨-, hm⟩ := returns_replyUnit.mp hreturns
      subst hs'
      refine h.indexes_trimmed change.log (pruneHistory_indexed hm h.covered) ⟨?_, ?_⟩
      · intro hleaks
        cases hleaks with
        | prunes _ forgets => exact forgets
      · exact .prunes by_admin
    case keptAll =>
      exact iff_of_true (h.items ▸ h.indexes) (by rintro ⟨⟩)
    case prunedByAge caller min_age by_admin inRange some_old fits change _ =>
      obtain ⟨-, hm⟩ := returns_replyUnit.mp hreturns
      subst hs'
      refine iff_of_true ?_ (by rintro ⟨⟩)
      intro o
      rw [pruneHistoryByAge_indexed hm some_old, h.owns_iff, change.log, ShardedLog.items_rebuild]
      simp only [not_and_self_iff, or_false, List.mem_map]
    case retentionSet caller limit by_admin thawed inRange change _ =>
      obtain ⟨-, hm⟩ := returns_replyUnit.mp hreturns
      subst hs'
      refine h.indexes_trimmed change.log (setRetentionLimit_indexed hm h.covered) ⟨?_, ?_⟩
      · intro hleaks
        cases hleaks with
        | limits _ _ _ forgets => exact forgets
      · exact .limits by_admin thawed inRange

/-- A call that leaks an index key succeeds. -/
theorem Leaks.returns {c : Call} (h : Leaks f s c) :
    ∃ r env', (exec c).Returns f ⟨s, [], []⟩ r env' := by
  cases h with
  | records submits admits _ =>
    obtain ⟨env', hreturns, -⟩ := submits.records admits
    exact ⟨_, env', (Prog.returns_bind ..).mpr ⟨_, env', hreturns, rfl⟩⟩
  | prunes by_admin _ =>
    obtain ⟨env', hreturns⟩ := pruneHistory_returns by_admin _
    exact ⟨_, env', returns_replyUnit.mpr ⟨rfl, hreturns⟩⟩
  | limits by_admin thawed inRange _ =>
    obtain ⟨env', hreturns⟩ := setRetentionLimit_returns by_admin thawed inRange
    exact ⟨_, env', returns_replyUnit.mpr ⟨rfl, hreturns⟩⟩
  | restarts absent signed consented _ =>
    obtain ⟨env', hreturns⟩ := initializeContract_returns absent signed consented
    exact ⟨_, env', returns_replyUnit.mpr ⟨rfl, hreturns⟩⟩

/-- A call that wraps the tail counter leaks. -/
theorem Effect.room_of_not_leaks {c : Call} (he : Effect f s c r s' evs) (h : Tidy s)
    (hkeeps : ¬ Leaks f s c) : History.tail s + (decisions evs).length < 2 ^ 32 := by
  have hbounded := h.bounded
  rcases he.records_or_quiet with ⟨severity, cfg, result, hrecords⟩ | ⟨hquiet, -⟩
  · obtain ⟨caller, by_operator, rfl⟩ := hrecords.call
    rw [hrecords.events, decisions_recordedEvents, List.length_singleton]
    by_contra hfull
    exact hkeeps (.records ⟨by_operator, hrecords.bound, hrecords.config, hrecords.computed⟩
      hrecords.admits (.inl (by omega)))
  · rw [decisions_of_quiet hquiet]
    exact hbounded

/-- A contract that is initialized again over no entry has an exact, empty history. -/
theorem historyExact_restarted (h : Tidy s) (hnone : History.readAllEntries s = [])
    (admin operator : Address) : HistoryExact (initializedStorage s admin operator) := by
  have hlen : History.len s = 0 := by rw [← h.length, hnone]; rfl
  have hordered := h.exact.exact.ordered
  have hlog : History.shards (initializedStorage s admin operator) =
      ⟨0, 0, fun _ => none, fun _ => []⟩ := by
    refine ShardedLog.ext ?_ ?_ ?_ ?_
    · simp [History.head, initializedStorage]
    · simp [History.tail, initializedStorage]
    · intro i
      have habsent : ¬ ((History.shards s).entry i).isSome := by
        rw [h.exact.exact.present]
        simp only [History.len, History.shards_head, History.shards_tail] at *
        omega
      simpa [History.readEntry, initializedStorage] using habsent
    · intro o
      have howned : (History.shards s).index o = [] := by
        rw [h.exact.exact.index, ShardedLog.owned, ShardedLog.window, History.shards_len, hlen]
        rfl
      simpa [History.entryIndicesForOutage, initializedStorage] using howned
  have hzero : History.len (initializedStorage s admin operator) = 0 :=
    congrArg ShardedLog.len hlog
  have hlimit : retentionLimit (initializedStorage s admin operator) = retentionLimit s := by
    simp [retentionLimit, initializedStorage]
  refine ⟨?_, by rw [hzero]; simp [initializedStorage], by omega, ?_⟩
  swap
  · rw [hlimit]
    exact h.exact.limit
  rw [hlog]
  exact ShardedLog.exact_empty

/-- A call that does not leak keeps the history tidy. -/
theorem Tidy.step (h : Tidy s) (hc : Current s) {c : Call}
    (hreturns : (exec c).Returns f ⟨s, [], []⟩ r env') (hkeeps : ¬ Leaks f s c) :
    Tidy env'.storage := by
  have he := returns_effect hc hreturns
  have hbounded : History.tail env'.storage < 2 ^ 32 := (he.sound h.sound).bounded
  refine ⟨?_, hbounded, ?_⟩
  · cases hinit : c.isInitialize with
    | false => exact (he.historyExact h.exact hinit (he.room_of_not_leaks h hkeeps)).1
    | true =>
      obtain ⟨admin, operator, rfl, absent, signed, consented, hs', -⟩ := he.of_initialize hinit
      rw [hs']
      refine historyExact_restarted h ?_ admin operator
      by_contra retained
      exact hkeeps (.restarts absent signed consented retained)
  · rw [History.readAllEntries_eq_items hbounded]
    exact (h.indexes_iff hc hreturns).mpr hkeeps

/-- A tidy history has at most two keys for each retained entry. -/
theorem Tidy.keysBounded (h : Tidy s) : KeysBounded s where
  indexed := h.indexes
  bounded := by
    -- every key is that of a retained slot, or of the outage of a retained entry
    let keys : List StorageKey := (History.shards s).window.map .histEntry ++
      (History.readAllEntries s).map fun entry => .histIndex entry.outage_id
    have hkeys : {k | isShardKey k = true ∧ (s k).isSome} ⊆ {k | k ∈ keys} := by
      rintro k ⟨hshard, hpresent⟩
      cases k <;> simp only [isShardKey, Bool.false_eq_true] at hshard
      case histEntry i =>
        have hi := ShardedLog.mem_window.mpr ((h.exact.exact.present i).mp hpresent)
        exact List.mem_append_left _ (List.mem_map_of_mem hi)
      case histIndex o =>
        obtain ⟨entry, hmem, rfl⟩ := (h.indexes o).mp hpresent
        exact List.mem_append_right _ (List.mem_map.mpr ⟨entry, hmem, rfl⟩)
    have hlen : keys.length ≤ 2 * retentionLimit s := by
      have hfits := h.exact.fits
      simp only [keys, List.length_append, List.length_map, h.length, ShardedLog.window,
        List.length_range', History.shards_len]
      omega
    calc {k | isShardKey k = true ∧ (s k).isSome}.encard
        ≤ (keys.toFinset : Set StorageKey).encard := by
          refine Set.encard_le_encard (hkeys.trans ?_)
          intro k hk
          simpa using hk
      _ = keys.toFinset.card := Set.encard_coe_eq_coe_finsetCard _
      _ ≤ 2 * retentionLimit s := by
          exact_mod_cast keys.toFinset_card_le.trans hlen

end Steps

/-! ## Whole runs -/

theorem keysBounded_empty : KeysBounded Store.empty where
  indexed := by
    intro o
    simp [History.readAllEntries, History.readRange, History.len, History.tail, saturatingAdd]
  bounded := by
    have hnone :
        {k : StorageKey | isShardKey k = true ∧ ((Store.empty : Storage) k).isSome} = ∅ := by
      ext k
      simp
    rw [hnone, Set.encard_empty]
    exact zero_le

theorem tidy_initialized (admin operator : Address) :
    Tidy (initializedStorage Store.empty admin operator) := by
  have hlog := shards_initialized admin operator
  have htail : History.tail (initializedStorage Store.empty admin operator) = 0 :=
    congrArg ShardedLog.tail hlog
  refine ⟨historyExact_initialized admin operator, by omega, ?_⟩
  intro o
  rw [History.readAllEntries_eq_items (by omega), hlog]
  simp [History.Indexed, initializedStorage, ShardedLog.items]

/-- Nothing leaks before the contract is initialized. -/
theorem not_leaks_empty {f : Frame Address} {c : Call} : ¬ Leaks f Store.empty c := by
  intro hleaks
  cases hleaks with
  | records submits _ _ => cases submits.by_operator.version
  | prunes by_admin _ => cases by_admin.version
  | limits by_admin _ _ _ => cases by_admin.version
  | restarts _ _ _ retained =>
    refine retained ?_
    simp [History.readAllEntries, History.readRange, History.len, History.tail, saturatingAdd]

/-- All along a run the index keys are those of the outages with a retained entry, and the history
keys are at most twice the retention limit, exactly when no call of the run leaks an index key. -/
theorem keys_bounded_iff (txs : List ContractTx) :
    (∀ before, before <+: txs → KeysBounded (after before)) ↔
      ∀ st ∈ steps txs, ¬ Leaks st.tx.frame st.pre st.tx.call := by
  refine holds_along_iff (I := fun txs => after txs = Store.empty ∨ Tidy (after txs))
    (P := fun txs => KeysBounded (after txs))
    (B := fun st => Leaks st.tx.frame st.pre st.tx.call) ?_ ?_ ?_ txs
  · exact ⟨.inl rfl, keysBounded_empty⟩
  · intro txs tx hI hP hkeeps
    rcases invoke_cases exec tx (after txs) with ⟨r, env', hreturns, hi⟩ | ⟨x, hi⟩
    · have htidy : Tidy env'.storage := by
        rcases hI with hempty | htidy
        · have he := returns_effect (current_after txs) hreturns
          rw [hempty] at he
          obtain ⟨admin, operator, -, hs', -⟩ := effect_of_empty he
          rw [hs']
          exact tidy_initialized admin operator
        · exact htidy.step (current_after txs) hreturns hkeeps
      rw [after_concat, hi]
      exact ⟨.inr htidy, htidy.keysBounded⟩
    · rw [after_concat, hi]
      exact ⟨hI, hP⟩
  · intro txs tx hI _ hleaks hP
    rcases hI with hempty | htidy
    · rw [show final exec Store.empty txs = Store.empty from hempty] at hleaks
      exact not_leaks_empty hleaks
    · obtain ⟨r, env', hreturns⟩ := hleaks.returns
      have hbounded : History.tail (after (txs ++ [tx])) < 2 ^ 32 := (sound_after _).bounded
      rw [after_concat, invoke_of_returns hreturns] at hP hbounded
      refine (htidy.indexes_iff (current_after txs) hreturns).mp ?_ hleaks
      rw [← History.readAllEntries_eq_items hbounded]
      exact hP.indexed

/-- With room for one entry, the decision for a second outage evicts that of the first. -/
def evictingRun : List ContractTx :=
  launch ++ [⟨.setRetentionLimit ⟨1⟩ 1, ⟨[⟨1⟩], 2, 2⟩⟩, submitTen 3 critical,
    ⟨.calculateSla ⟨2⟩ (symbolShort "second") critical 10, ⟨[⟨2⟩], 4, 4⟩⟩]

/-- The index key of the first outage is still there. -/
theorem evictingRun_leaks : ¬ KeysBounded (after evictingRun) := by
  intro h
  obtain ⟨entry, hmem, houtage⟩ := (h.indexed sampleOutage).mp (by decide)
  revert houtage
  have hentries : (History.readAllEntries (after evictingRun)).map SLAResult.outage_id =
      [symbolShort "second"] := by decide
  have houtages := List.mem_map_of_mem (f := SLAResult.outage_id) hmem
  rw [hentries, List.mem_singleton] at houtages
  rw [houtages]
  decide

end ApexChainx
