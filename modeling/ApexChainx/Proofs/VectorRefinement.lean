import ApexChainx.Proofs.Calculation
import ApexChainx.Proofs.HistoryInvariant
import ApexChainx.Proofs.SharedCalls

/-!
# The sharded contract refines the single-vector one

Run side by side from a fresh deployment, the sharded contract and the single-vector one give the
same reply to every call and commit the same events, and what the shards retain is the vector
(`sharded_refines_vector`). The relation is that the shared keys agree and the retained entries
are the vector; index lookups and linear scans then find the same entries, because the shards
are exact.
-/

namespace ApexChainx

open Host Misc

/-- The vector holds what the shards retain, and the shared keys agree. -/
structure Refines (s v : Storage) : Prop where
  shared : Store.Agree sharedKeys s v
  history : SingleVector.history v = (History.shards s).items

/-! ## The vector after an operation -/

namespace SingleVector

/-- What an operation of the vector leaves: the vector `h`, the events as they were, and every
shared key as it was. -/
structure Leaves (env env' : ContractEnv) (h : List SLAResult) : Prop where
  history : SingleVector.history env'.storage = h
  events : env'.events = env.events
  other : ∀ k ∈ sharedKeys, env'.storage k = env.storage k

variable (f : Frame Address) (env : ContractEnv)

theorem storeHistory_leaves (h : List SLAResult) :
    ∃ env', (storeHistory h).Returns f env () env' ∧ Leaves env env' h := by
  refine ⟨_, rfl, by simp [history], rfl, ?_⟩
  intro k hk
  rw [Env.set_storage, Env.set_storage, Store.set_other, Store.set_other]
  · rintro rfl
    cases hk
  · rintro rfl
    cases hk

theorem appendEntry_leaves (result : SLAResult) :
    ∃ env', (appendEntry (history env.storage) result).Returns f env () env' ∧
      Leaves env env' (if (history env.storage).length + 1 > retentionLimit env.storage then
        (history env.storage ++ [result]).tail else history env.storage ++ [result]) := by
  generalize htotal : env.set .totalEntries (saturatingAdd 32
    ((env.storage .totalEntries).getD 0) 1) = counted
  have hother : ∀ k ∈ sharedKeys, counted.storage k = env.storage k := by
    intro k hk
    rw [← htotal, Env.set_storage, Store.set_other]
    rintro rfl
    cases hk
  have hlimit : (counted.storage .retentionLimit).getD maxHistorySize =
      retentionLimit env.storage := by rw [hother .retentionLimit rfl]; rfl
  obtain ⟨env₁, hdrop, hleaves₁⟩ :=
    storeHistory_leaves f counted ((history env.storage ++ [result]).drop 1)
  obtain ⟨env₂, hkeep, hleaves₂⟩ := storeHistory_leaves f counted (history env.storage ++ [result])
  have hevents : counted.events = env.events := by rw [← htotal]; rfl
  by_cases hlen : (history env.storage).length + 1 > retentionLimit env.storage
  · refine ⟨env₁, ?_, ?_, ?_, ?_⟩
    · simp only [appendEntry, Contract.getD, Contract.set, Prog.returns_getD_bind,
        Prog.returns_set_bind, Prog.returns_ite, htotal, hlimit, List.length_append,
        List.length_singleton]
      exact .inl ⟨hlen, hdrop⟩
    · rw [if_pos hlen, hleaves₁.history, List.drop_one]
    · rw [hleaves₁.events, hevents]
    · intro k hk
      rw [hleaves₁.other k hk, hother k hk]
  · refine ⟨env₂, ?_, ?_, ?_, ?_⟩
    · simp only [appendEntry, Contract.getD, Contract.set, Prog.returns_getD_bind,
        Prog.returns_set_bind, Prog.returns_ite, htotal, hlimit, List.length_append,
        List.length_singleton]
      exact .inr ⟨hlen, hkeep⟩
    · rw [if_neg hlen, hleaves₂.history]
    · rw [hleaves₂.events, hevents]
    · intro k hk
      rw [hleaves₂.other k hk, hother k hk]

theorem trimHistory_leaves (keep : Nat) :
    ∃ env', (trimHistory keep).Returns f env ((history env.storage).length - keep) env' ∧
      Leaves env env' ((history env.storage).drop ((history env.storage).length - keep)) := by
  by_cases hlen : (history env.storage).length > keep
  · obtain ⟨env', hstore, hleaves⟩ := storeHistory_leaves f env
      ((history env.storage).drop ((history env.storage).length - keep))
    refine ⟨env', ?_, hleaves⟩
    simp only [trimHistory, Contract.getD, Prog.returns_getD_bind, Prog.returns_ite]
    exact .inl ⟨hlen, (Prog.returns_bind ..).mpr ⟨(), env', hstore, rfl⟩⟩
  · have hzero : (history env.storage).length - keep = 0 := by omega
    refine ⟨env, ?_, ?_, rfl, fun _ _ => rfl⟩
    · simp only [trimHistory, Contract.getD, Prog.returns_getD_bind, Prog.returns_ite]
      exact .inr ⟨hlen, by rw [hzero]; rfl⟩
    · rw [hzero]
      rfl

end SingleVector

/-! ## The relation inside a call -/

/-- The shards are the log `L`, the vector is `h`, and the rest agrees. -/
structure Held (L : ShardedLog SLAResult Symbol) (h : List SLAResult) (env env' : ContractEnv) :
    Prop where
  shared : Store.Agree sharedKeys env.storage env'.storage
  events : env.events = env'.events
  log : History.shards env.storage = L
  history : SingleVector.history env'.storage = h

section Held

variable {L : ShardedLog SLAResult Symbol} {h : List SLAResult}

theorem agrees_held : Agrees (Held L h) sharedKeys := fun _ _ hheld => hheld.shared

theorem isHistoryKey_of_shared {k : StorageKey} (hk : k ∈ sharedKeys) :
    History.isHistoryKey k = false := by
  have hshared : isShared k = true := hk
  simp only [isShared, Bool.and_eq_true, Bool.not_eq_true'] at hshared
  exact hshared.1.1

theorem ne_history_of_shared {k : StorageKey} (hk : k ∈ sharedKeys) : StorageKey.history ≠ k := by
  rintro rfl
  cases hk

theorem allows_held : Allows (Held L h) sharedKeys where
  set := by
    intro env env' hheld k hk v
    refine ⟨hheld.shared.set k v, hheld.events, ?_, ?_⟩
    · rw [Env.set_storage, History.shards_set_of_other (isHistoryKey_of_shared hk), hheld.log]
    · rw [Env.set_storage, SingleVector.history, Store.set_other _ _ (ne_history_of_shared hk)]
      exact hheld.history
  remove := by
    intro env env' hheld k hk
    refine ⟨hheld.shared.remove k, hheld.events, ?_, ?_⟩
    · rw [Env.remove_storage, History.shards_remove_of_other (isHistoryKey_of_shared hk),
        hheld.log]
    · rw [Env.remove_storage, SingleVector.history, Store.remove_other _ (ne_history_of_shared hk)]
      exact hheld.history
  publish := by
    intro env env' hheld e
    exact ⟨hheld.shared, by rw [Env.publish_events, Env.publish_events, hheld.events], hheld.log,
      hheld.history⟩

/-- A history operation on either side changes the log and the vector. -/
theorem Held.change {env env' mid mid' : ContractEnv} {L' : ShardedLog SLAResult Symbol}
    {h' : List SLAResult} (hheld : Held L h env env') (hlog : History.Leaves env mid L')
    (hvector : SingleVector.Leaves env' mid' h') : Held L' h' mid mid' := by
  refine ⟨?_, ?_, hlog.log, hvector.history⟩
  · intro k hk
    rw [hlog.other k (isHistoryKey_of_shared hk), hvector.other k hk, hheld.shared k hk]
  · rw [hlog.events, hvector.events, hheld.events]

end Held

/-- The environments a call starts in. -/
def Starts (s v : Storage) (env env' : ContractEnv) : Prop :=
  env = ⟨s, [], []⟩ ∧ env' = ⟨v, [], []⟩

/-- The environments a call may end in: they agree, and the vector holds what the shards retain
unless a decision wrapped the tail. -/
structure Ends (s : Storage) (env env' : ContractEnv) : Prop where
  shared : Store.Agree sharedKeys env.storage env'.storage
  events : env.events = env'.events
  history : History.tail s + (decisions env.events).length < 2 ^ 32 →
    SingleVector.history env'.storage = (History.shards env.storage).items

theorem Held.ends {L : ShardedLog SLAResult Symbol} {env env' : ContractEnv} (s : Storage)
    (hheld : Held L L.items env env') : Ends s env env' :=
  ⟨hheld.shared, hheld.events, fun _ => by rw [hheld.history, hheld.log]⟩

theorem Refines.held {s v : Storage} (hr : Refines s v) :
    Held (History.shards s) (History.shards s).items ⟨s, [], []⟩ ⟨v, [], []⟩ :=
  ⟨hr.shared, rfl, rfl, hr.history⟩

theorem Refines.starts {s v : Storage} (hr : Refines s v) (env env' : ContractEnv)
    (hstarts : Starts s v env env') :
    Held (History.shards s) (History.shards s).items env env' := by
  obtain ⟨rfl, rfl⟩ := hstarts
  exact hr.held

/-! ## Scans and lookups -/

/-- The anti-spam loop finds the last entry of the outage and counts its entries. -/
theorem foldl_scanEntry (outage_id : Symbol) (history : List SLAResult) :
    history.foldl (SingleVector.scanEntry outage_id) (none, 0) =
      ((history.filter (·.outage_id = outage_id)).getLast?,
        (history.filter (·.outage_id = outage_id)).length) := by
  induction history using List.reverseRecOn with
  | nil => rfl
  | append_singleton front entry ih =>
    rw [List.foldl_append, ih]
    by_cases h : entry.outage_id = outage_id <;> simp [SingleVector.scanEntry, h]

/-! ## The calls on the history -/

section Calls

variable {f : Frame Address} {L : ShardedLog SLAResult Symbol}

/-- The result of an append: the log has recorded the entry, and the vector holds it, less its
oldest entry above the limit. -/
def Appended (L : ShardedLog SLAResult Symbol) (result : SLAResult) (env env' : ContractEnv) :
    Prop :=
  ∃ limit, Held (L.record SLAResult.outage_id 32 limit result)
    (if L.items.length + 1 > limit then (L.items ++ [result]).tail else L.items ++ [result])
    env env'

theorem append_lockstep (result : SLAResult) :
    Lockstep f (Held L L.items)
      (do let retention_limit ← Contract.getD .retentionLimit maxHistorySize
          History.appendEntry result retention_limit (L.index result.outage_id))
      (SingleVector.appendEntry L.items result) (fun _ => Appended L result) := by
  apply Lockstep.of_returns
  intro env env' hheld
  obtain ⟨u, mid, happend⟩ :=
    History.appendEntry_total result (retentionLimit env.storage) (L.index result.outage_id) f env
  obtain ⟨mid', hvector, hleaves'⟩ := SingleVector.appendEntry_leaves f env' result
  have hindices : L.index result.outage_id =
      History.entryIndicesForOutage env.storage result.outage_id := by rw [← hheld.log]; rfl
  have hlimit : retentionLimit env'.storage = retentionLimit env.storage := by
    simp only [retentionLimit, hheld.shared .retentionLimit rfl]
  rw [hheld.history, hlimit] at hleaves'
  rw [hheld.history] at hvector
  have hleaves := (History.appendEntry_leaves (hindices ▸ happend)).1
  rw [hheld.log] at hleaves
  exact ⟨u, mid, mid', happend, hvector, _, hheld.change hleaves hleaves'⟩

theorem recordDecision_lockstep (severity : Symbol) (result : SLAResult) :
    Lockstep f (Held L L.items)
      (recordDecision severity result (L.index result.outage_id))
      (SingleVector.recordDecision severity result L.items) (fun _ => Appended L result) := by
  have hkeeps : ∀ {α : Type} {m : Contract α}, (∀ L h, Keeps (Held L h) m) →
      Lockstep f (Appended L result) m m fun _ => Appended L result :=
    fun hm => Keeps.union (fun limit => hm _ _) f
  apply Lockstep.bind (keeps_recordSeverityTelemetry counters_shared agrees_held allows_held _ _ f)
  intro _
  apply Lockstep.bind (append_lockstep result)
  intro _
  apply Lockstep.bind
    (hkeeps fun _ _ => keeps_recordStats counters_shared agrees_held allows_held _)
  intro _
  apply Lockstep.bind (hkeeps fun _ _ => .sequence)
  intro _
  apply Lockstep.bind (hkeeps fun _ _ => .publish allows_held _)
  intro _
  apply Lockstep.bind (hkeeps fun _ _ => .publish allows_held _)
  intro _
  exact Lockstep.pure fun _ _ h => h

/-- Both trims drop the same entries and return how many. -/
theorem trim_lockstep (hs : L.Sound SLAResult.outage_id 32)
    (keep : Nat) :
    Lockstep f (Held L L.items) (History.pruneOldest keep) (SingleVector.trimHistory keep)
      (fun _ => Held (L.dropTo SLAResult.outage_id keep)
        (L.dropTo SLAResult.outage_id keep).items) := by
  apply Lockstep.of_returns
  intro env env' hheld
  obtain ⟨removed, mid, hprune⟩ := History.pruneOldest_total keep f env
  obtain ⟨hleaves, rfl, -⟩ := History.pruneOldest_leaves hprune
  obtain ⟨mid', htrim, hleaves'⟩ := SingleVector.trimHistory_leaves f env' keep
  have hlen : History.len env.storage = L.len := by rw [← hheld.log]; rfl
  rw [hheld.log] at hleaves
  rw [hheld.history, ShardedLog.length_items hs] at htrim hleaves'
  rw [← ShardedLog.items_dropTo hs] at hleaves'
  rw [hlen] at hprune
  exact ⟨_, mid, mid', hprune, htrim, hheld.change hleaves hleaves'⟩

/-- A rebuild of the shards from a list stores the list. -/
theorem rebuild_lockstep (entries : List SLAResult) (hfits : L.head + entries.length < 2 ^ 32) :
    Lockstep f (Held L L.items) (History.rebuildHistory entries)
      (SingleVector.storeHistory entries)
      (fun _ => Held (L.rebuild SLAResult.outage_id entries)
        (L.rebuild SLAResult.outage_id entries).items) := by
  apply Lockstep.of_returns
  intro env env' hheld
  obtain ⟨u, mid, hrebuild⟩ := History.rebuildHistory_total entries f env
  obtain ⟨mid', hstore, hleaves'⟩ := SingleVector.storeHistory_leaves f env' entries
  have hhead : History.head env.storage = L.head := by rw [← hheld.log]; rfl
  obtain ⟨hleaves, -⟩ := History.rebuildHistory_leaves hrebuild (by rw [hhead]; exact hfits)
  rw [hheld.log] at hleaves
  refine ⟨u, mid, mid', hrebuild, hstore, ?_⟩
  rw [ShardedLog.items_rebuild]
  exact hheld.change hleaves hleaves'

end Calls

section Calls

variable {f : Frame Address} {s v : Storage} (hr : Refines s v)
  (hx : (History.shards s).Exact SLAResult.outage_id) (hb : History.tail s < 2 ^ 32)

include hr

theorem Refines.agrees : Agrees (Starts s v) sharedKeys :=
  fun env env' hstarts => (hr.starts env env' hstarts).shared

include hx hb

/-- Storing a decision ends in related environments, unless it wraps the tail. -/
theorem recordDecision_ends (severity : Symbol) (result : SLAResult) :
    Lockstep f (Starts s v)
      (recordDecision severity result (History.entryIndicesForOutage s result.outage_id))
      (SingleVector.recordDecision severity result (History.shards s).items)
      (fun _ => Ends s) := by
  have hs : (History.shards s).Sound SLAResult.outage_id 32 := hx.sound hb
  have hlock := (recordDecision_lockstep (f := f) (L := History.shards s) severity
    result).strengthen hr.starts
  refine (hlock.and_left (G := fun _ mid => decisions mid.events = [result]) ?_).weaken ?_
  · rintro env env' r mid ⟨rfl, -⟩ hreturns
    obtain ⟨-, -, hevents⟩ := recordDecision_recorded hreturns rfl
    simp [hevents]
  · rintro r env env' ⟨⟨limit, hheld⟩, hdecided⟩
    refine ⟨hheld.shared, hheld.events, ?_⟩
    intro hroom
    rw [hdecided] at hroom
    rw [hheld.history, hheld.log, ShardedLog.items_record hs hx.ordered hroom,
      ShardedLog.length_items hs]

theorem calculateSla_ends (caller : Address) (outage_id severity : Symbol) (mttr : Nat) :
    Lockstep f (Starts s v) (calculateSla caller outage_id severity mttr)
      (SingleVector.calculateSla caller outage_id severity mttr) (fun _ => Ends s) := by
  have hstarts := hr.agrees
  unfold calculateSla SingleVector.calculateSla
  apply Lockstep.bind (keeps_checkVersion guards_shared hstarts f)
  intro _
  apply Lockstep.bind (Keeps.reads hstarts (fun _ _ _ => rfl) f)
  intro _
  apply Lockstep.bind (keeps_requireNotPaused hstarts rfl f)
  intro _
  apply Lockstep.bind (keeps_requireOperator guards_shared hstarts caller f)
  intro _
  refine Lockstep.bind
    (Keeps.reads hstarts (fun _ _ h => loadConfig_congr calls_shared h severity) f) fun cfg => ?_
  refine Lockstep.bind
    (Keeps.reads hstarts (fun _ _ h => computeSeverityConfigHash_congr calls_shared h severity) f)
    fun hash => ?_
  apply Lockstep.bind (Keeps.timestamp f)
  intro now
  apply Lockstep.bind (Lockstep.reads fun _ _ _ => rfl)
  intro result
  rintro env env' ⟨⟨rfl, rfl⟩, computed⟩
  obtain ⟨rfl, -⟩ := computeResult_inputs computed
  -- the index of the outage and the scan of the vector find the same entries
  have hlatest : History.latestForOutage s result.outage_id = _ := hx.latest_eq result.outage_id
  have hcount : (History.entryIndicesForOutage s result.outage_id).length = _ :=
    hx.length_index result.outage_id
  have hscan := foldl_scanEntry result.outage_id (History.shards s).items
  change Meets _
    (settle mttr cfg hash (History.latestForOutage s result.outage_id)
      (History.entryIndicesForOutage s result.outage_id).length _
      (recordDecision severity result (History.entryIndicesForOutage s result.outage_id)) f _)
    (settle mttr cfg hash ((SingleVector.history v).foldl
        (SingleVector.scanEntry result.outage_id) (none, 0)).1
      ((SingleVector.history v).foldl (SingleVector.scanEntry result.outage_id) (none, 0)).2
      (fun prev => .dupInput severity prev none)
      (SingleVector.recordDecision severity result (SingleVector.history v)) f _)
  rw [hr.history, hscan, hlatest, hcount]
  have hrecord := recordDecision_ends (f := f) hr hx hb severity result _ _ ⟨rfl, rfl⟩
  have hkept : Ends s ⟨s, [], []⟩ ⟨v, [], []⟩ := hr.held.ends s
  unfold ShardedLog.itemsOf
  cases ((History.shards s).items.filter (·.outage_id = result.outage_id)).getLast? with
  | none => exact hrecord
  | some prev =>
    by_cases hgeneration : prev.config_version_hash = hash
    · by_cases hdiffers : prev.mttr_minutes ≠ mttr ∨
          prev.threshold_minutes ≠ cfg.threshold_minutes
      · simp only [settle, hgeneration, hdiffers, if_true]
        exact .stopped
      · simp only [settle, hgeneration, hdiffers, if_true, if_false]
        exact .returned hkept
    · by_cases hfull : ((History.shards s).items.filter
          (·.outage_id = result.outage_id)).length ≥ maxRecalcsPerOutage
      · simp only [settle, hgeneration, hfull, if_true, if_false]
        exact .stopped
      · simp only [settle, hgeneration, hfull, if_false]
        exact hrecord

theorem pruneHistory_ends (caller : Address) (keep_latest : Nat) :
    Lockstep f (Starts s v) (pruneHistory caller keep_latest)
      (SingleVector.pruneHistory caller keep_latest) (fun _ => Ends s) := by
  have hs : (History.shards s).Sound SLAResult.outage_id 32 := hx.sound hb
  refine Lockstep.strengthen ?_ hr.starts
  apply Lockstep.bind (keeps_checkVersion guards_shared agrees_held f)
  intro _
  apply Lockstep.bind (keeps_requireAdmin guards_shared agrees_held caller f)
  intro _
  apply Lockstep.bind (trim_lockstep hs keep_latest)
  intro removed
  exact (Keeps.publish allows_held _ f).weaken fun _ _ _ hheld => hheld.ends s

theorem pruneHistoryByAge_ends (caller : Address) (min_age : Nat) :
    Lockstep f (Starts s v) (pruneHistoryByAge caller min_age)
      (SingleVector.pruneHistoryByAge caller min_age) (fun _ => Ends s) := by
  have hs : (History.shards s).Sound SLAResult.outage_id 32 := hx.sound hb
  have hlen : (History.shards s).items.length = History.len s := ShardedLog.length_items hs
  refine Lockstep.strengthen ?_ hr.starts
  apply Lockstep.bind (keeps_checkVersion guards_shared agrees_held f)
  intro _
  apply Lockstep.bind (keeps_requireAdmin guards_shared agrees_held caller f)
  intro _
  apply Lockstep.bind (Keeps.timestamp f)
  intro now
  apply Lockstep.bind (Keeps.failIf _ _ f)
  intro _
  refine Lockstep.bind (Q := fun history env env' =>
    Held (History.shards s) (History.shards s).items env env' ∧
      history = (History.shards s).items) ?_ fun history => ?_
  -- both read the same history
  · refine Lockstep.of_returns fun env env' hheld => ⟨_, env, env', rfl, ?_, hheld, ?_⟩
    · have hvector : (env'.storage .history).getD [] = (History.shards s).items := hheld.history
      have htail : History.tail env.storage = History.tail s := congrArg ShardedLog.tail hheld.log
      simp [hvector, History.readAllEntries_eq_items (htail ▸ hb), hheld.log]
    · have htail : History.tail env.storage = History.tail s := congrArg ShardedLog.tail hheld.log
      rw [History.readAllEntries_eq_items (htail ▸ hb), hheld.log]
  -- and keep the same part of it
  rintro env env' ⟨hheld, rfl⟩
  have hfits : (History.shards s).head + ((History.shards s).items.filter
      (now - min_age ≤ ·.recorded_at)).length < 2 ^ 32 := by
    have hle := List.length_filter_le (fun entry : SLAResult => now - min_age ≤ entry.recorded_at)
      (History.shards s).items
    have hordered := hx.ordered
    simp only [History.shards_head, History.shards_tail, History.len] at *
    omega
  have hpublish : ∀ (L : ShardedLog SLAResult Symbol) (e : Event),
      Lockstep f (Held L L.items) (Contract.publish e) (Contract.publish e) fun _ => Ends s :=
    fun L e => (Keeps.publish allows_held e f).weaken fun _ _ _ hmid => hmid.ends s
  by_cases hremoved : (History.shards s).items.length -
      ((History.shards s).items.filter (now - min_age ≤ ·.recorded_at)).length > 0
  · simp only [hremoved, if_true]
    exact Lockstep.bind (rebuild_lockstep _ hfits) (fun _ => hpublish _ _) env env' hheld
  · simp only [hremoved, if_false]
    exact hpublish _ _ env env' hheld

theorem setRetentionLimit_ends (caller : Address) (limit : Nat) :
    Lockstep f (Starts s v) (setRetentionLimit caller limit)
      (SingleVector.setRetentionLimit caller limit) (fun _ => Ends s) := by
  have hs : (History.shards s).Sound SLAResult.outage_id 32 := hx.sound hb
  refine Lockstep.strengthen ?_ hr.starts
  apply Lockstep.bind (keeps_checkVersion guards_shared agrees_held f)
  intro _
  apply Lockstep.bind (keeps_requireAdmin guards_shared agrees_held caller f)
  intro _
  apply Lockstep.bind (keeps_requireNotFrozen calls_shared agrees_held f)
  intro _
  apply Lockstep.bind (Keeps.failIf _ _ f)
  intro _
  apply Lockstep.bind (Keeps.set allows_held rfl _ f)
  intro _
  apply Lockstep.bind (Keeps.publish allows_held _ f)
  intro _
  apply Lockstep.bind (trim_lockstep hs limit)
  intro removed
  exact (Keeps.ite _ (.publish allows_held _) (.pure _) f).weaken
    fun _ _ _ hheld => hheld.ends s

end Calls

/-! ## Every call -/

section Steps

variable {s v : Storage} {f : Frame Address}

theorem replyUnit_lockstep {P Q : ContractEnv → ContractEnv → Prop} {m m' : Contract Unit}
    (h : Lockstep f P m m' fun _ => Q) :
    Lockstep f P (replyUnit m) (replyUnit m') fun _ => Q :=
  Lockstep.bind h fun _ => Lockstep.pure fun _ _ hQ => hQ

theorem replyDecision_lockstep {P Q : ContractEnv → ContractEnv → Prop} {m m' : Contract SLAResult}
    (h : Lockstep f P m m' fun _ => Q) :
    Lockstep f P (replyDecision m) (replyDecision m') fun _ => Q :=
  Lockstep.bind h fun _ => Lockstep.pure fun _ _ hQ => hQ

/-- The two contracts run every call but `initialize` in lockstep. -/
theorem exec_ends (hc : Current s) (hr : Refines s v)
    (hx : (History.shards s).Exact SLAResult.outage_id) (hb : History.tail s < 2 ^ 32) {c : Call}
    (hinit : c.isInitialize = false) :
    Lockstep f (Starts s v) (exec c) (SingleVector.exec c) (fun _ => Ends s) := by
  have hshared : ∀ {m : Contract Unit},
      Keeps (Held (History.shards s) (History.shards s).items) m →
        Lockstep f (Starts s v) (replyUnit m) (replyUnit m) (fun _ => Ends s) := fun hm =>
    replyUnit_lockstep (((hm f).strengthen hr.starts).weaken fun _ _ _ hmid => hmid.ends s)
  cases c with
  | initializeContract => cases hinit
  | migrate caller =>
    refine replyUnit_lockstep ((migrate_lockstep calls_shared hr.agrees ?_ caller f).weaken ?_)
    · rintro env env' ⟨rfl, rfl⟩
      exact hc
    · exact fun _ env env' hstarts => (hr.starts env env' hstarts).ends s
  | setOperator => exact hshared (keeps_setOperator calls_shared agrees_held allows_held _ _)
  | proposeAdmin => exact hshared (keeps_proposeAdmin calls_shared agrees_held allows_held _ _)
  | acceptAdmin => exact hshared (keeps_acceptAdmin calls_shared agrees_held allows_held _)
  | cancelAdminProposal =>
    exact hshared (keeps_cancelAdminProposal calls_shared agrees_held allows_held _)
  | proposeOperator =>
    exact hshared (keeps_proposeOperator calls_shared agrees_held allows_held _ _)
  | acceptOperator => exact hshared (keeps_acceptOperator calls_shared agrees_held allows_held _)
  | cancelOperatorProposal =>
    exact hshared (keeps_cancelOperatorProposal calls_shared agrees_held allows_held _)
  | renounceAdmin => exact hshared (keeps_renounceAdmin calls_shared agrees_held allows_held _)
  | pause => exact hshared (keeps_pause guards_shared agrees_held allows_held rfl rfl _ _)
  | unpause => exact hshared (keeps_unpause guards_shared agrees_held allows_held rfl rfl _)
  | freezeConfig => exact hshared (keeps_freezeConfig calls_shared agrees_held allows_held _)
  | unfreezeConfig => exact hshared (keeps_unfreezeConfig calls_shared agrees_held allows_held _)
  | setConfig => exact hshared (keeps_setConfig calls_shared agrees_held allows_held _ _ _ _ _)
  | setCustomSeverity =>
    exact hshared (keeps_setCustomSeverity calls_shared agrees_held allows_held _ _ _ _ _)
  | removeCustomSeverity =>
    exact hshared (keeps_removeCustomSeverity calls_shared agrees_held allows_held _ _)
  | calculateSla => exact replyDecision_lockstep (calculateSla_ends hr hx hb _ _ _ _)
  | pruneHistory => exact replyUnit_lockstep (pruneHistory_ends hr hx hb _ _)
  | pruneHistoryByAge => exact replyUnit_lockstep (pruneHistoryByAge_ends hr hx hb _ _)
  | setRetentionLimit => exact replyUnit_lockstep (setRetentionLimit_ends hr hx hb _ _)

/-- The two outcomes of a call: the same reply and events, and related storages. -/
structure SameOutcome (o o' : Outcome StorageKey.Val Event SLAError Reply) : Prop where
  reply : o'.reply = o.reply
  events : o'.events = o.events
  refines : Refines o.storage o'.storage

/-- The shared keys agree and the events are the same. -/
def Alike (env env' : ContractEnv) : Prop :=
  Store.Agree sharedKeys env.storage env'.storage ∧ env.events = env'.events

theorem allows_alike : Allows Alike Set.univ where
  set := fun _ _ h k _ v => ⟨h.1.set k v, h.2⟩
  remove := fun _ _ h k _ => ⟨h.1.remove k, h.2⟩
  publish := fun _ _ h e => ⟨h.1, by rw [Env.publish_events, Env.publish_events, h.2]⟩

/-- The first `initialize` gives both contracts an empty history. -/
theorem initialize_sameOutcome (hr : Refines s v) {tx : ContractTx} {admin operator : Address}
    (hcall : tx.call = .initializeContract admin operator)
    (hfresh : initializes ⟨s, tx⟩ = true → s = Store.empty) :
    SameOutcome (invoke exec tx s) (invoke SingleVector.exec tx v) := by
  have hlock : Lockstep tx.frame Alike (exec tx.call) (SingleVector.exec tx.call)
      (fun _ => Alike) := by
    rw [hcall]
    exact replyUnit_lockstep
      (keeps_initializeContract calls_shared (fun _ _ h => h.1) allows_alike _ _ _)
  have halike : Alike ⟨s, [], []⟩ ⟨v, [], []⟩ := ⟨hr.shared, rfl⟩
  rcases hlock.invoke halike with
    ⟨r, env, env', ⟨hshared, hevents⟩, hi, hi'⟩ | ⟨x, hi, hi'⟩
  · have hinit : initializes ⟨s, tx⟩ = true := by
      rw [initializes_of_ok hi rfl, hcall]
      rfl
    obtain rfl := hfresh hinit
    rw [hi, hi']
    refine ⟨rfl, hevents.symm, hshared, ?_⟩
    -- the shards start empty, and the vector was never written
    have hshards : env.storage = initializedStorage Store.empty admin operator := by
      obtain ⟨s', evs, he, hi₁⟩ := effect_of_reply current_empty
        (show (invoke exec tx Store.empty).reply = .ok r by rw [hi])
      obtain ⟨admin', operator', hcall', rfl, -⟩ := effect_of_empty he
      obtain ⟨rfl, rfl⟩ := Call.initializeContract.inj (hcall'.symm.trans hcall)
      exact congrArg Outcome.storage (hi.symm.trans hi₁)
    have hcurrent : Current v := by
      intro other hother
      rw [← hr.shared .admin rfl] at hother
      cases hother
    have hsame : invoke SingleVector.exec tx v = invoke exec tx v := by
      simp only [invoke, hcall]
      rfl
    have hvector : env'.storage .history = v .history := by
      obtain ⟨v', evs, he, hi₂⟩ := effect_of_reply hcurrent
        (show (invoke exec tx v).reply = .ok r by rw [← hsame, hi'])
      rw [hcall] at he
      have hend : env'.storage = v' := congrArg Outcome.storage (hi'.symm.trans (hsame.trans hi₂))
      rw [hend]
      exact he.frame rfl
    have hhistory : SingleVector.history v = [] := hr.history
    show SingleVector.history env'.storage = (History.shards env.storage).items
    rw [SingleVector.history, hvector, hshards, shards_initialized]
    exact hhistory
  · rw [hi, hi']
    exact ⟨rfl, rfl, hr⟩

/-- One call: the same outcome from related storages. -/
theorem sameOutcome (hc : Current s) (hr : Refines s v)
    (hx : (History.shards s).Exact SLAResult.outage_id) (tx : ContractTx)
    (hfresh : initializes ⟨s, tx⟩ = true → s = Store.empty)
    (hroom : History.tail s + (decisions (invoke exec tx s).events).length < 2 ^ 32) :
    SameOutcome (invoke exec tx s) (invoke SingleVector.exec tx v) := by
  cases hinit : tx.call.isInitialize with
  | true =>
    cases hcall : tx.call <;> rw [hcall] at hinit <;> cases hinit
    exact initialize_sameOutcome hr hcall hfresh
  | false =>
    have hlock := exec_ends (f := tx.frame) hc hr hx (by omega) hinit
    rcases hlock.invoke ⟨rfl, rfl⟩ with ⟨r, env, env', hends, hi, hi'⟩ | ⟨x, hi, hi'⟩
    · rw [hi] at hroom
      rw [hi, hi']
      exact ⟨rfl, hends.events.symm, hends.shared, hends.history hroom⟩
    · rw [hi, hi']
      exact ⟨rfl, rfl, hr⟩

end Steps

/-! ## Whole runs -/

/-- The shards retain what the vector holds, and the statistics and the telemetry agree. -/
structure SameHistory (s v : Storage) : Prop where
  entries : History.readAllEntries s = SingleVector.history v
  outage : ∀ outage_id, History.entriesForOutage s outage_id =
    (SingleVector.history v).filter (·.outage_id = outage_id)
  latest : ∀ outage_id, History.latestForOutage s outage_id =
    ((SingleVector.history v).filter (·.outage_id = outage_id)).getLast?
  view : ∀ outage_id severity mttr now, calculateSlaView outage_id severity mttr now s =
    SingleVector.calculateSlaView outage_id severity mttr now v
  stats : s .stats = v .stats
  telemetry : ∀ k, isTelemetryKey k = true → s k = v k

theorem isShared_of_telemetry {k : StorageKey} (hk : isTelemetryKey k = true) :
    k ∈ sharedKeys := by
  cases k <;> simp [isTelemetryKey] at hk <;> rfl

/-- The view finds the same latest decision on both sides. -/
theorem Refines.view {s v : Storage} (hr : Refines s v)
    (hx : (History.shards s).Exact SLAResult.outage_id) (outage_id severity : Symbol)
    (mttr now : Nat) : calculateSlaView outage_id severity mttr now s =
      SingleVector.calculateSlaView outage_id severity mttr now v := by
  have hlatest : ((SingleVector.history v).foldl (SingleVector.scanEntry outage_id) (none, 0)).1 =
      History.latestForOutage s outage_id := by
    rw [foldl_scanEntry, hr.history]
    exact (hx.latest_eq outage_id).symm
  have hversion : checkVersion s = checkVersion v := by
    simp only [checkVersion, hr.shared .storageVersion rfl]
  have hconfig := loadConfig_congr calls_shared hr.shared severity
  have hhash := computeSeverityConfigHash_congr calls_shared hr.shared severity
  cases hprev : History.latestForOutage s outage_id <;>
    simp only [calculateSlaView, SingleVector.calculateSlaView, hversion, hconfig, hhash, hlatest,
      hprev]

theorem Refines.sameHistory {s v : Storage} (hr : Refines s v)
    (hx : (History.shards s).Exact SLAResult.outage_id) (hb : History.tail s < 2 ^ 32) :
    SameHistory s v where
  entries := by rw [History.readAllEntries_eq_items hb, hr.history]
  outage := fun outage_id => by
    rw [hr.history]
    exact hx.entries_eq outage_id
  latest := fun outage_id => by
    rw [hr.history]
    exact hx.latest_eq outage_id
  view := hr.view hx
  stats := hr.shared .stats rfl
  telemetry := fun _ hk => hr.shared _ (isShared_of_telemetry hk)

theorem refines_empty : Refines Store.empty Store.empty :=
  ⟨Store.Agree.refl _ _, rfl⟩

/-- The shards are exact after every run with at most one `initialize`, whose tail counts the
records. -/
theorem shards_after (txs : List ContractTx) (hone : initializations txs ≤ 1)
    (hfew : (recorded txs).length < 2 ^ 32) :
    (History.shards (after txs)).Exact SLAResult.outage_id ∧
      History.tail (after txs) ≤ (recorded txs).length := by
  rcases Nat.eq_zero_or_pos (initializations txs) with hzero | hpos
  · rw [after_eq_empty hzero]
    refine ⟨⟨Nat.le_refl 0, ?_, fun o => rfl⟩, Nat.zero_le _⟩
    intro i
    simp [History.readEntry, History.head, History.tail]
  · obtain ⟨hexact, htail⟩ := historyExact_after (by omega) hfew
    exact ⟨hexact.exact, htail⟩

/-- A call of a run has the same outcome on both sides, if the storages before it are related. -/
theorem sameOutcome_after (txs : List ContractTx) (tx : ContractTx)
    (hone : initializations (txs ++ [tx]) ≤ 1)
    (hfew : (recorded (txs ++ [tx])).length < 2 ^ 32)
    (hr : Refines (after txs) (SingleVector.after txs)) :
    SameOutcome (invoke exec tx (after txs))
      (invoke SingleVector.exec tx (SingleVector.after txs)) := by
  have hcount := initializations_le (List.prefix_append txs [tx])
  have hlen := length_recorded_le (List.prefix_append txs [tx])
  obtain ⟨hx, htail⟩ := shards_after txs (by omega) (by omega)
  refine sameOutcome (current_after txs) hr hx tx ?_ ?_
  · intro hinit
    refine after_eq_empty ?_
    simp only [initializations, steps, trace_append, trace, List.countP_append,
      List.countP_singleton] at hone ⊢
    simp only [show initializes ⟨final exec Store.empty txs, tx⟩ = true from hinit, if_true] at hone
    omega
  · rw [recorded_append_singleton, List.length_append] at hfew
    omega

theorem refines_after (txs : List ContractTx) (hone : initializations txs ≤ 1)
    (hfew : (recorded txs).length < 2 ^ 32) : Refines (after txs) (SingleVector.after txs) := by
  induction txs using List.reverseRecOn with
  | nil => exact refines_empty
  | append_singleton txs tx ih =>
    have hcount := initializations_le (List.prefix_append txs [tx])
    have hlen := length_recorded_le (List.prefix_append txs [tx])
    have hstep := sameOutcome_after txs tx hone hfew (ih (by omega) (by omega))
    rw [after, SingleVector.after, final_append, final_append]
    exact hstep.refines

/-- The sharded contract refines the single-vector one, over every run in which `initialize`
succeeds once and fewer than `2^32` decisions are recorded: after every prefix the shards retain
the vector, with the same statistics and telemetry, and every call has the same reply and commits
the same events. -/
theorem sharded_refines_vector (txs : List ContractTx) (hone : initializations txs = 1)
    (hfew : (recorded txs).length < 2 ^ 32) :
    (∀ before, before <+: txs → SameHistory (after before) (SingleVector.after before)) ∧
      ∀ before tx, before ++ [tx] <+: txs →
        (invoke exec tx (after before)).reply =
            (invoke SingleVector.exec tx (SingleVector.after before)).reply ∧
          (invoke exec tx (after before)).events =
            (invoke SingleVector.exec tx (SingleVector.after before)).events := by
  refine ⟨?_, ?_⟩
  · intro before hpre
    have hcount := initializations_le hpre
    have hlen := length_recorded_le hpre
    obtain ⟨hx, htail⟩ := shards_after before (by omega) (by omega)
    exact (refines_after before (by omega) (by omega)).sameHistory hx (by omega)
  · intro before tx hpre
    have hcount := initializations_le hpre
    have hlen := length_recorded_le hpre
    have hcount' := initializations_le (List.prefix_append before [tx])
    have hlen' := length_recorded_le (List.prefix_append before [tx])
    have hstep := sameOutcome_after before tx (by omega) (by omega)
      (refines_after before (by omega) (by omega))
    exact ⟨hstep.reply.symm, hstep.events.symm⟩

theorem sharded_refines_vector_oneDecision :
    SameHistory (after oneDecision) (SingleVector.after oneDecision) :=
  (sharded_refines_vector oneDecision (by decide) (by decide)).1 oneDecision List.prefix_rfl

end ApexChainx
