import ApexChainx.Proofs.Batches
import ApexChainx.Proofs.Layouts
import ApexChainx.Proofs.Ledger

/-!
# The order of the trims

`prune_history`, `prune_history_by_age` and `set_retention_limit` all keep an end of the retained
entries: the count prunes by moving the head of the shards, the age prune by writing the shards
anew. Between two submissions their order is of no consequence (`trims_commute`): every one is
answered as it would be alone, the same entries are retained, and what differs, the slots of the
entries, is not observable.
-/

namespace ApexChainx

open Host Misc

/-! ## Ends of a list of times -/

section Ends

variable {α : Type} {l : List α}

theorem rtake_rtake (l : List α) (n m : Nat) : (l.rtake n).rtake m = l.rtake (min n m) := by
  simp only [List.rtake, List.length_drop, List.drop_drop]
  congr 1
  omega

theorem rtake_cons_of_le {n : Nat} (a : α) (h : n ≤ l.length) : (a :: l).rtake n = l.rtake n := by
  rw [List.rtake, List.length_cons, Nat.succ_sub h, List.drop_succ_cons, List.rtake]

/-- What a lower bound keeps of an increasing list and its last elements can be taken in any
order. -/
theorem filter_rtake (g : α → Nat) (cutoff n : Nat) (h : l.Pairwise fun a b => g a ≤ g b) :
    (l.rtake n).filter (cutoff ≤ g ·) = (l.filter (cutoff ≤ g ·)).rtake n := by
  induction l with
  | nil => simp [List.rtake]
  | cons a rest ih =>
    obtain ⟨hle, hrest⟩ := List.pairwise_cons.mp h
    by_cases hn : n ≤ rest.length
    · rw [rtake_cons_of_le a hn, ih hrest]
      by_cases hkeep : cutoff ≤ g a
      · -- the bound keeps everything from `a` on
        have hall : rest.filter (cutoff ≤ g ·) = rest := List.filter_eq_self.mpr fun b hb =>
          decide_eq_true (Nat.le_trans hkeep (hle b hb))
        rw [List.filter_cons_of_pos (by simpa using hkeep), hall, rtake_cons_of_le a hn]
      · rw [List.filter_cons_of_neg (by simpa using hkeep)]
    · have hlen := List.length_filter_le (fun b => decide (cutoff ≤ g b)) (a :: rest)
      simp only [List.length_cons] at hlen
      rw [rtake_of_length_le (l := a :: rest) (by simp; omega), rtake_of_length_le (by omega)]

end Ends

/-! ## What a trim keeps -/

/-- The calls that only shorten the history. -/
def Call.isTrim : Call → Bool
  | .pruneHistory _ _ | .pruneHistoryByAge _ _ | .setRetentionLimit _ _ => true
  | _ => false

/-- What a trim keeps of the entries, when it goes through. -/
def trimmed (entries : List SLAResult) (tx : ContractTx) : List SLAResult :=
  match tx.call with
  | .pruneHistory _ keep | .setRetentionLimit _ keep => entries.rtake keep
  | .pruneHistoryByAge _ min_age =>
    entries.filter (tx.frame.timestamp - min_age ≤ ·.recorded_at)
  | _ => entries

/-- The retention limit that a trim stores. -/
def Call.limit? : Call → Option Nat
  | .setRetentionLimit _ limit => some limit
  | _ => none

/-- The entries are in the order of their ledger times. -/
def Ordered (entries : List SLAResult) : Prop :=
  entries.Pairwise fun a b => a.recorded_at ≤ b.recorded_at

section Trimmed

variable {entries : List SLAResult}

theorem trimmed_sublist (entries : List SLAResult) (tx : ContractTx) :
    (trimmed entries tx).Sublist entries := by
  unfold trimmed
  split
  · exact List.drop_sublist _ _
  · exact List.drop_sublist _ _
  · exact List.filter_sublist
  · exact List.Sublist.refl _

theorem Ordered.trimmed (h : Ordered entries) (tx : ContractTx) :
    Ordered (trimmed entries tx) :=
  h.sublist (trimmed_sublist entries tx)

theorem trimmed_comm (h : Ordered entries) (tx tx' : ContractTx) :
    trimmed (trimmed entries tx) tx' = trimmed (trimmed entries tx') tx := by
  have hcounts : ∀ n m, (entries.rtake n).rtake m = (entries.rtake m).rtake n := fun n m => by
    rw [rtake_rtake, rtake_rtake, Nat.min_comm]
  have hages := filter_rtake (l := entries) SLAResult.recorded_at
  unfold trimmed
  split <;> split <;> first
    | exact hcounts _ _
    | exact hages _ _ h
    | exact (hages _ _ h).symm
    | rfl
    | simp only [List.filter_filter, Bool.and_comm]

/-- The entries that a list of trims keeps do not depend on its order. -/
theorem foldl_trimmed_perm {trims trims' : List ContractTx} (hperm : trims.Perm trims')
    (h : Ordered entries) : trims.foldl trimmed entries = trims'.foldl trimmed entries := by
  induction hperm generalizing entries with
  | nil => rfl
  | cons tx _ ih => exact ih (h.trimmed tx)
  | swap tx tx' rest =>
    simp only [List.foldl_cons]
    rw [trimmed_comm h]
  | trans _ _ ih ih' => exact (ih h).trans (ih' h)

end Trimmed

/-! ## Whether a trim goes through -/

/-- The keys that decide it. -/
def trimGuards : Set StorageKey := {k | isGuardKey k = true ∨ k = .freeze}

/-- The environments agree on them. -/
def SameGuards (env env' : ContractEnv) : Prop := Store.Agree trimGuards env.storage env'.storage

theorem agrees_sameGuards : Agrees SameGuards trimGuards := fun _ _ h => h

theorem guards_trimGuards (k : StorageKey) (hk : isGuardKey k = true) : k ∈ trimGuards := .inl hk

section Guarded

variable {f : Frame Address}

/-- A program that cannot fail returns whatever the storages hold. -/
theorem lockstep_of_total {m : Contract Unit} (hm : m.Total) :
    Lockstep f SameGuards m m fun _ _ _ => True := by
  refine Lockstep.of_returns fun env env' _ => ?_
  obtain ⟨_, mid, h⟩ := hm f env
  obtain ⟨_, mid', h'⟩ := hm f env'
  exact ⟨(), mid, mid', h, h', trivial⟩

/-- A trim checks the version and the admin first. -/
theorem lockstep_byAdmin {caller : Address} {m : Contract Unit}
    (hm : Lockstep f SameGuards m m fun _ _ _ => True) :
    Lockstep f SameGuards (do Contract.reads checkVersion; requireAdmin caller; m)
      (do Contract.reads checkVersion; requireAdmin caller; m) fun _ _ _ => True :=
  .bind (keeps_checkVersion guards_trimGuards agrees_sameGuards f) fun _ =>
    .bind (keeps_requireAdmin guards_trimGuards agrees_sameGuards caller f) fun _ => hm

theorem lockstep_pruneHistory (caller : Address) (keep_latest : Nat) :
    Lockstep f SameGuards (pruneHistory caller keep_latest) (pruneHistory caller keep_latest)
      fun _ _ _ => True :=
  lockstep_byAdmin <| lockstep_of_total <|
    .bind (History.pruneOldest_total _) fun _ => .publish _

theorem lockstep_pruneHistoryByAge (caller : Address) (min_age : Nat) :
    Lockstep f SameGuards (pruneHistoryByAge caller min_age) (pruneHistoryByAge caller min_age)
      fun _ _ _ => True :=
  lockstep_byAdmin <| .bind (Keeps.timestamp f) fun _ => .bind (Keeps.failIf _ _ f) fun _ =>
    lockstep_of_total <| .bind (.ask _) fun _ =>
      .ite _ (.bind (History.rebuildHistory_total _) fun _ => .publish _) (.publish _)

theorem lockstep_setRetentionLimit (caller : Address) (limit : Nat) :
    Lockstep f SameGuards (setRetentionLimit caller limit) (setRetentionLimit caller limit)
      fun _ _ _ => True := by
  have hthawed : Keeps SameGuards (Contract.reads requireNotFrozen) :=
    .reads agrees_sameGuards fun s s' h => by
      have hfrozen : isConfigFrozen s = isConfigFrozen s' := by
        simp only [isConfigFrozen, h .freeze (.inr rfl)]
      simp only [requireNotFrozen, hfrozen]
  exact lockstep_byAdmin <| .bind (hthawed f) fun _ => .bind (Keeps.failIf _ _ f) fun _ =>
    lockstep_of_total <| .bind (.set _ _) fun _ => .bind (.publish _) fun _ =>
      .bind (History.pruneOldest_total _) fun _ => .ite _ (.publish _) (.pure _)

end Guarded

/-- The reply to a trim does not depend on the history, nor on the limit. -/
theorem reply_congr {s s' : Storage} {tx : ContractTx} (htrim : tx.call.isTrim = true)
    (h : Store.Agree trimGuards s s') :
    (invoke exec tx s').reply = (invoke exec tx s).reply := by
  have hreply : ∀ {m : Contract Unit}, (Lockstep tx.frame SameGuards m m fun _ _ _ => True) →
      Lockstep tx.frame SameGuards (replyUnit m) (replyUnit m) fun _ _ _ => True :=
    fun hm => .bind hm fun _ => .pure fun _ _ _ => trivial
  have hlockstep : Lockstep tx.frame SameGuards (exec tx.call) (exec tx.call)
      fun _ _ _ => True := by
    cases hcall : tx.call <;> rw [hcall] at htrim <;> simp [Call.isTrim] at htrim
    case pruneHistory => exact hreply (lockstep_pruneHistory _ _)
    case pruneHistoryByAge => exact hreply (lockstep_pruneHistoryByAge _ _)
    case setRetentionLimit => exact hreply (lockstep_setRetentionLimit _ _)
  rcases hlockstep.invoke h with ⟨r, env, env', -, hi, hi'⟩ | ⟨x, hi, hi'⟩ <;> rw [hi, hi']

/-! ## What a trim does -/

/-- The retention limit once a trim went through. -/
def limited (limit : Option Nat) (tx : ContractTx) : Option Nat := tx.call.limit?.or limit

/-- What a trim that goes through leaves. -/
structure Trims (tx : ContractTx) (s s' : Storage) : Prop where
  entries : History.readAllEntries s' = trimmed (History.readAllEntries s) tx
  limit : s' .retentionLimit = limited (s .retentionLimit) tx
  other : ∀ k ∈ sharedKeys, k ≠ .retentionLimit → s' k = s k

theorem Effect.trims {s s' : Storage} {tx : ContractTx} {r : Reply} {evs : List Event}
    (he : Effect tx.frame s tx.call r s' evs) (htrim : tx.call.isTrim = true)
    (hs : (History.shards s).Sound SLAResult.outage_id 32) : Trims tx s s' := by
  obtain ⟨call, f⟩ := tx
  have hread := History.readAllEntries_eq_items hs.bounded
  have hread' := History.readAllEntries_eq_items (he.sound hs).bounded
  have hdropped : ∀ keep, ((History.shards s).dropTo SLAResult.outage_id keep).items =
      (History.readAllEntries s).rtake keep := fun keep => by
    rw [ShardedLog.items_dropTo hs, hread, List.rtake, ShardedLog.length_items hs]
  cases he <;> simp [Call.isTrim] at htrim
  case pruned by_admin change historyLen =>
    refine ⟨?_, change.other .retentionLimit rfl, fun k hk _ => change.other k ?_⟩
    · rw [hread', change.log, hdropped]
      rfl
    · exact isHistoryKey_of_shared hk
  case keptAll by_admin inRange all => exact ⟨all.symm, rfl, fun _ _ _ => rfl⟩
  case prunedByAge by_admin inRange some_old fits change historyLen =>
    refine ⟨?_, change.other .retentionLimit rfl, fun k hk _ => change.other k ?_⟩
    · rw [hread', change.log, ShardedLog.items_rebuild]
      rfl
    · exact isHistoryKey_of_shared hk
  case retentionSet by_admin thawed inRange change historyLen =>
    refine ⟨?_, ?_, fun k hk hne => ?_⟩
    · rw [hread', change.log, hdropped]
      rfl
    · rw [change.other .retentionLimit rfl]
      simp [limited, Call.limit?]
    · rw [change.other k (isHistoryKey_of_shared hk), Store.set_other _ _ hne]

/-! ## Runs of trims -/

/-- All the retention limits that the calls set are the same. -/
def OneLimit (batch : List ContractTx) : Prop :=
  ∀ tx ∈ batch, ∀ tx' ∈ batch, ∀ limit ∈ tx.call.limit?, ∀ limit' ∈ tx'.call.limit?,
    limit = limit'

/-- The calls of the batch that go through on `s`. -/
def effective (s : Storage) (batch : List ContractTx) : List ContractTx :=
  batch.filter fun tx => succeeds ⟨s, tx⟩

/-- What a batch of trims leaves of `s`. -/
structure TrimmedBy (s : Storage) (batch : List ContractTx) (s' : Storage) : Prop where
  entries : History.readAllEntries s' =
    (effective s batch).foldl trimmed (History.readAllEntries s)
  limit : s' .retentionLimit = (effective s batch).foldl limited (s .retentionLimit)
  other : ∀ k ∈ sharedKeys, k ≠ .retentionLimit → s' k = s k

section Runs

variable {s s' : Storage} {tx : ContractTx} {batch batch' : List ContractTx} {n : Nat}

/-- A trim records nothing, so the room for new entries stays. -/
theorem Roomy.trim (h : Roomy n s) (htrim : tx.call.isTrim = true) :
    Roomy n (invoke exec tx s).storage := by
  have hcalls : tx.call.isInitialize = false ∧ tx.call.isCalculation = false := by
    cases hcall : tx.call <;> rw [hcall] at htrim <;> first | exact ⟨rfl, rfl⟩ | cases htrim
  have hroom := h.room
  rcases invoke_effect h.current tx with ⟨r, s', evs, he, hi⟩ | ⟨x, hi⟩ <;> rw [hi]
  · have hnone := congrArg List.length (he.decisions_of_not_calculation hcalls.2)
    rw [List.length_nil] at hnone
    obtain ⟨hexact, htail⟩ := he.historyExact h.history hcalls.1 (by omega)
    have hroom' : History.tail s' + n < 2 ^ 32 := by omega
    exact ⟨he.current h.current, hexact, hroom'⟩
  · exact h

theorem Roomy.trims (h : Roomy n s) (htrims : ∀ tx ∈ batch, tx.call.isTrim = true) :
    Roomy n (final exec s batch) := by
  induction batch generalizing s with
  | nil => exact h
  | cons tx batch ih =>
    exact ih (h.trim (htrims tx List.mem_cons_self)) fun tx' htx' =>
      htrims tx' (List.mem_cons_of_mem tx htx')

theorem TrimmedBy.guards (h : TrimmedBy s batch s') : Store.Agree trimGuards s s' := by
  intro k hk
  refine (h.other k ?_ ?_).symm
  · rcases hk with hk | rfl
    · exact guards_shared k hk
    · rfl
  · rintro rfl
    rcases hk with hk | hk <;> cases hk

/-- Whether the next trim goes through is the same as on the state before the batch. -/
theorem TrimmedBy.succeeds_eq (h : TrimmedBy s batch s') (htrim : tx.call.isTrim = true) :
    succeeds ⟨s', tx⟩ = succeeds ⟨s, tx⟩ :=
  congrArg Except.isOk (reply_congr htrim h.guards)

theorem TrimmedBy.concat (h : TrimmedBy s batch s') (hs' : Roomy n s')
    (htrim : tx.call.isTrim = true) :
    TrimmedBy s (batch ++ [tx]) (invoke exec tx s').storage := by
  have hsucceeds := h.succeeds_eq htrim
  rcases invoke_effect hs'.current tx with ⟨r, t, evs, he, hi⟩ | ⟨x, hi⟩
  · have hone : effective s (batch ++ [tx]) = effective s batch ++ [tx] := by
      simp [effective, List.filter_append, ← hsucceeds, succeeds_of_ok hi]
    have htrims := he.trims htrim hs'.sound
    have hstorage : (invoke exec tx s').storage = t := by rw [hi]
    rw [hstorage]
    refine ⟨?_, ?_, fun k hk hne => (htrims.other k hk hne).trans (h.other k hk hne)⟩
    · rw [hone, List.foldl_concat, ← h.entries, htrims.entries]
    · rw [hone, List.foldl_concat, ← h.limit, htrims.limit]
  · have hnone : effective s (batch ++ [tx]) = effective s batch := by
      simp [effective, List.filter_append, ← hsucceeds, not_succeeds_of_refused hi]
    have hstorage : (invoke exec tx s').storage = s' := by rw [hi]
    rw [hstorage]
    exact ⟨by rw [hnone, h.entries], by rw [hnone, h.limit], h.other⟩

/-- The batch trims what there is, whatever its calls do to each other. -/
theorem Roomy.trimmedBy (hs : Roomy n s) (htrims : ∀ tx ∈ batch, tx.call.isTrim = true) :
    TrimmedBy s batch (final exec s batch) := by
  induction batch using List.reverseRecOn with
  | nil => exact ⟨rfl, rfl, fun _ _ _ => rfl⟩
  | append_singleton batch tx ih =>
    have hbatch : ∀ tx ∈ batch, tx.call.isTrim = true := fun tx' htx' =>
      htrims tx' (List.mem_append_left _ htx')
    rw [final_append]
    exact (ih hbatch).concat (hs.trims hbatch) (htrims tx (by simp))

theorem limited_comm (limit : Option Nat) {tx tx' : ContractTx}
    (h : ∀ l ∈ tx.call.limit?, ∀ l' ∈ tx'.call.limit?, l = l') :
    limited (limited limit tx) tx' = limited (limited limit tx') tx := by
  unfold limited
  cases hl : tx.call.limit? with
  | none => rfl
  | some l =>
    cases hl' : tx'.call.limit? with
    | none => rfl
    | some l' => exact congrArg some (h l hl l' hl').symm

/-- Two orders of the same trims leave the same contents. -/
theorem sameContents_of_perm (hs : Roomy n s) (hordered : Ordered (History.readAllEntries s))
    (hperm : batch.Perm batch') (htrims : ∀ tx ∈ batch, tx.call.isTrim = true)
    (hlimit : OneLimit batch) : SameContents (final exec s batch) (final exec s batch') := by
  have hours := hs.trimmedBy htrims
  have htheirs := hs.trimmedBy fun tx htx => htrims tx (hperm.mem_iff.mpr htx)
  have heffective : (effective s batch).Perm (effective s batch') := hperm.filter _
  refine ⟨fun k hk => ?_, ?_⟩
  · by_cases hne : k = .retentionLimit
    · subst hne
      rw [hours.limit, htheirs.limit]
      exact heffective.foldl_eq' (fun tx htx tx' htx' limit => limited_comm limit <|
        hlimit tx (List.mem_of_mem_filter htx) tx' (List.mem_of_mem_filter htx')) _
    · rw [hours.other k hk hne, htheirs.other k hk hne]
  · rw [hours.entries, htheirs.entries, foldl_trimmed_perm heffective hordered]

end Runs

/-! ## The theorem -/

/-- The trims between two submissions commute, over every run in which `initialize` succeeds once
and the ledger times do not decrease. When they set one retention limit, each of them is answered
as on the state before all of them, and no further call and no read can tell in which order they
came. -/
theorem trims_commute (txs : List ContractTx) (hone : initializations txs = 1)
    (htimes : NonDecreasing txs) {batch batch' : List ContractTx} (hperm : batch.Perm batch')
    (htrims : ∀ tx ∈ batch, tx.call.isTrim = true) (hlimit : OneLimit batch)
    (later : List ContractTx) (hfew : (recorded txs).length + later.length < 2 ^ 32)
    (hinit : ∀ tx ∈ later, tx.call.isInitialize = false) :
    (∀ pre tx post, batch' = pre ++ tx :: post →
      (invoke exec tx (after (txs ++ pre))).reply = (invoke exec tx (after txs)).reply) ∧
    answers (after (txs ++ batch')) later = answers (after (txs ++ batch)) later ∧
    SameReads (after (txs ++ batch ++ later)) (after (txs ++ batch' ++ later)) := by
  have hroomy := roomy_after hone hfew
  have htrims' : ∀ tx ∈ batch', tx.call.isTrim = true := fun tx htx =>
    htrims tx (hperm.mem_iff.mpr htx)
  have hordered := (disciplined_after txs htimes).ordered
  have hsame := sameContents_of_perm hroomy hordered hperm htrims hlimit
  obtain ⟨hanswers, hend, hleft, hright⟩ :=
    hsame.along (hroomy.trims htrims) (hroomy.trims htrims') hinit
  refine ⟨?_, ?_, ?_⟩
  · rintro pre tx post rfl
    have hpre : TrimmedBy (after txs) pre (final exec (after txs) pre) :=
      hroomy.trimmedBy fun tx' htx' => htrims' tx' (List.mem_append_left _ htx')
    rw [after, final_append]
    exact reply_congr (htrims' tx (by simp)) hpre.guards
  · rw [after, after, final_append, final_append]
    exact hanswers
  · have hreads := hend.reads hleft hright
    rw [← final_append, ← final_append, ← final_append, ← final_append,
      ← List.append_assoc, ← List.append_assoc] at hreads
    exact hreads

/-- An age prune, a count prune and a retention limit that all let the newer entry stay. -/
def threeTrims : List ContractTx :=
  [trim (.pruneHistoryByAge ⟨1⟩ 1), trim (.pruneHistory ⟨1⟩ 1), trim (.setRetentionLimit ⟨1⟩ 5)]

/-- The trims in either order, which leave the entry in different slots. -/
theorem trims_commute_twoOutages :
    History.head (after (twoOutages ++ threeTrims)) = 0 ∧
      History.head (after (twoOutages ++ threeTrims.reverse)) = 1 ∧
      SameReads (after (twoOutages ++ threeTrims ++ [submitTen 5 critical]))
        (after (twoOutages ++ threeTrims.reverse ++ [submitTen 5 critical])) := by
  have htimes : NonDecreasing twoOutages := by
    simp [NonDecreasing, twoOutages, launch, submitTen, submission]
  have hlimit : OneLimit threeTrims := by simp [OneLimit, threeTrims, trim, Call.limit?]
  exact ⟨by decide, by decide, (trims_commute twoOutages (by decide) htimes
    (List.reverse_perm threeTrims).symm (by decide) hlimit [submitTen 5 critical] (by decide)
    (by decide)).2.2⟩

end ApexChainx
