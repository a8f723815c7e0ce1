import Mathlib.Algebra.BigOperators.Finprod
import Mathlib.Data.Set.Card
import Mathlib.Tactic.Linarith
import ApexChainx.Contract.StorageEstimation
import ApexChainx.Proofs.Health
import ApexChainx.Proofs.IndexKeys
import ApexChainx.Proofs.StoredKeys

/-!
# What the footprint estimate accounts for

`get_storage_footprint_estimate` counts some keys by name, the entries by the history counters and
the outages by a scan. Here the byte constants are charged to the stored keys themselves, and over
every run in which `initialize` succeeds once the estimate is that sum but for three differences:
the index key an outage keeps after its last entry is evicted, the freeze flag once it is cleared,
and the admin key once the admin has renounced (`footprint_accounts`).
-/

namespace Misc.ShardedLog

variable {α κ : Type} [DecidableEq κ] {key : α → κ} {S : ShardedLog α κ}

/-- The index lists of an exact log have as many slots as are retained. -/
theorem Exact.sum_index (he : Exact key S) {owners : Finset κ}
    (howners : ∀ a ∈ S.items, key a ∈ owners) :
    ∑ o ∈ owners, (S.index o).length = S.items.length := by
  have hcount : ∀ o, (S.index o).length = (S.items.map key).count o := fun o => by
    rw [he.length_index, itemsOf, ← List.countP_eq_length_filter, List.count, List.countP_map]
    exact List.countP_congr fun a _ => by simp
  have hsubset : (S.items.map key).toFinset ⊆ owners := fun o ho => by
    obtain ⟨a, ha, rfl⟩ := List.mem_map.mp (List.mem_toFinset.mp ho)
    exact howners a ha
  calc ∑ o ∈ owners, (S.index o).length
      = ∑ o ∈ owners, (S.items.map key).count o := Finset.sum_congr rfl fun o _ => hcount o
    _ = ∑ o ∈ (S.items.map key).toFinset, (S.items.map key).count o :=
        (Finset.sum_subset hsubset fun o _ ho =>
          List.count_eq_zero.mpr fun hmem => ho (List.mem_toFinset.mpr hmem)).symm
    _ = S.items.length := by rw [List.sum_toFinset_count_eq_length, List.length_map]

end Misc.ShardedLog

namespace ApexChainx

open Host Misc

namespace StorageEstimation

/-! ## The bytes of the stored keys -/

/-- What the constants charge for a key and its value; the keys without a constant of their own
are free, `HISTT` and `HISTLEN` being part of the charge for `HISTH`. -/
def keyBytes : (k : StorageKey) → k.Val → Nat
  | .admin, _ => bytesAdminKey
  | .adminRenounced, _ => bytesAdminrnKey
  | .operator, _ => bytesOperatorKey
  | .pending .admin, _ => bytesPendingAdminKey
  | .pending .operator, _ => bytesPendingOpKey
  | .pendingTs .admin, _ => bytesPendingAdminTsKey
  | .pendingTs .operator, _ => bytesPendingOpTsKey
  | .config, _ => bytesConfigKey
  | .customConfig, customs => bytesCustomConfigKeyBase + customs.len * bytesPerCustomSeverity
  | .configRegistry, _ => bytesCfgregKey
  | .paused, _ => bytesPausedKey
  | .pauseInfo, _ => bytesPauseInfoKey
  | .stats, _ => bytesStatsKey
  | .severityCalcCounts, _ => bytesCalcCountsKey
  | .severityViolCounts, _ => bytesViolCountsKey
  | .lastCalculationTs, _ => bytesLastCalcTsKey
  | .lastViolationTs, _ => bytesLastViolTsKey
  | .histHead, _ => bytesHistoryMetaBase
  | .configCount, _ => bytesCfgcntKey
  | .storageVersion, _ => bytesStorageVersionKey
  | .retentionLimit, _ => bytesRetentionLimitKey
  | .lastCfgUpdate, _ => bytesLcfgupdKey
  | .freeze, _ => bytesFreezeKey
  | .histEntry _, _ => bytesPerHistoryEntry + bytesPerHistoryEntryKey
  | .histIndex _, indices => bytesPerOutageIndexKey + indices.length * bytesPerHistoryIndexEntry
  | .customTelemetry, _ | .history, _ | .historyLen, _ | .histTail, _ | .totalEntries, _ => 0

/-- What is charged for a key as it is stored. -/
def storedAt (s : Storage) (k : StorageKey) : Nat := (s k).elim 0 (keyBytes k)

/-- What is charged for all the stored keys. -/
noncomputable def storedBytes (s : Storage) : Nat := ∑ᶠ k, storedAt s k

/-- The outages whose index key is stored without an index. -/
def emptyIndexes (s : Storage) : Set Symbol := {o | s (.histIndex o) = some []}

/-- The keys outside the sharded history. -/
def plainKeys : List StorageKey :=
  [.admin, .adminRenounced, .operator, .pending .admin, .pending .operator, .pendingTs .admin,
    .pendingTs .operator, .config, .customConfig, .configRegistry, .paused, .pauseInfo, .stats,
    .severityCalcCounts, .severityViolCounts, .lastCalculationTs, .lastViolationTs,
    .customTelemetry, .history, .historyLen, .histHead, .histTail, .configCount, .storageVersion,
    .retentionLimit, .totalEntries, .lastCfgUpdate, .freeze]

section Charges

variable {s : Storage} {k : StorageKey} {bytes : Nat}

theorem storedAt_of_stored (hbytes : ∀ v, keyBytes k v = bytes) (h : (s k).isSome) :
    storedAt s k = bytes := by
  obtain ⟨v, hv⟩ := Option.isSome_iff_exists.mp h
  simp [storedAt, hv, hbytes]

theorem storedAt_eq (hbytes : ∀ v, keyBytes k v = bytes) :
    storedAt s k = bytesWhenPresent s k bytes := by
  cases h : s k <;> simp [storedAt, bytesWhenPresent, h, hbytes]

theorem storedAt_customConfig :
    storedAt s .customConfig = bytesWhenPresent s .customConfig (bytesCustomConfigKeyBase +
      (s .customConfig).elim 0 OrdMap.len * bytesPerCustomSeverity) := by
  cases h : s .customConfig <;> simp [storedAt, bytesWhenPresent, h, keyBytes]

theorem storedAt_freeze :
    storedAt s .freeze = (if isConfigFrozen s then bytesFreezeKey else 0) +
      if s .freeze = some false then bytesFreezeKey else 0 := by
  rcases h : s .freeze with - | - | - <;> simp [storedAt, isConfigFrozen, h, keyBytes]

end Charges

/-! ## The sum over the stored keys -/

theorem plainKeys_nodup : plainKeys.Nodup := by decide

theorem mem_plainKeys {k : StorageKey} (hentry : ∀ i, k ≠ .histEntry i)
    (hindex : ∀ o, k ≠ .histIndex o) : k ∈ plainKeys := by
  rcases k with _ | _ | _ | (_ | _) | (_ | _) | _ <;> simp_all [plainKeys]

/-- Once the eager keys are stored, the keys counted by name are charged for, but for an admin
that has renounced and a freeze flag that is cleared. -/
theorem sum_plainKeys {s : Storage} (heager : ∀ k, isEagerKey k = true → (s k).isSome) :
    (plainKeys.map (storedAt s)).sum + (if s .admin = none then bytesAdminKey else 0) =
      bytesAlwaysPresent + bytesLazilyCreated s ((s .customConfig).elim 0 OrdMap.len) +
        if s .freeze = some false then bytesFreezeKey else 0 := by
  have eager : ∀ k bytes, isEagerKey k = true → (∀ v, keyBytes k v = bytes) →
      storedAt s k = bytes := fun k bytes hk hbytes => storedAt_of_stored hbytes (heager k hk)
  have free : ∀ k, (∀ v, keyBytes k v = 0) → storedAt s k = 0 := fun k hbytes => by
    simp [storedAt_eq hbytes, bytesWhenPresent]
  have hadmin : storedAt s .admin + (if s .admin = none then bytesAdminKey else 0) =
      bytesAdminKey := by
    cases h : s .admin <;> simp [storedAt, h, keyBytes]
  have lazily : ∀ k bytes, (∀ v, keyBytes k v = bytes) →
      storedAt s k = bytesWhenPresent s k bytes := fun _ _ hbytes => storedAt_eq hbytes
  simp only [plainKeys, List.map_cons, List.map_nil, List.sum_cons, List.sum_nil,
    eager .operator bytesOperatorKey rfl fun _ => rfl,
    eager .config bytesConfigKey rfl fun _ => rfl,
    eager .paused bytesPausedKey rfl fun _ => rfl,
    eager .stats bytesStatsKey rfl fun _ => rfl,
    eager .severityCalcCounts bytesCalcCountsKey rfl fun _ => rfl,
    eager .severityViolCounts bytesViolCountsKey rfl fun _ => rfl,
    eager .lastCalculationTs bytesLastCalcTsKey rfl fun _ => rfl,
    eager .lastViolationTs bytesLastViolTsKey rfl fun _ => rfl,
    eager .histHead bytesHistoryMetaBase rfl fun _ => rfl,
    eager .configCount bytesCfgcntKey rfl fun _ => rfl,
    eager .storageVersion bytesStorageVersionKey rfl fun _ => rfl,
    lazily .adminRenounced bytesAdminrnKey fun _ => rfl,
    lazily (.pending .admin) bytesPendingAdminKey fun _ => rfl,
    lazily (.pending .operator) bytesPendingOpKey fun _ => rfl,
    lazily (.pendingTs .admin) bytesPendingAdminTsKey fun _ => rfl,
    lazily (.pendingTs .operator) bytesPendingOpTsKey fun _ => rfl,
    lazily .configRegistry bytesCfgregKey fun _ => rfl,
    lazily .pauseInfo bytesPauseInfoKey fun _ => rfl,
    lazily .retentionLimit bytesRetentionLimitKey fun _ => rfl,
    lazily .lastCfgUpdate bytesLcfgupdKey fun _ => rfl,
    free .customTelemetry fun _ => rfl, free .history fun _ => rfl,
    free .historyLen fun _ => rfl, free .histTail fun _ => rfl, free .totalEntries fun _ => rfl,
    storedAt_customConfig, storedAt_freeze, bytesAlwaysPresent, bytesLazilyCreated]
  linarith only [hadmin]

/-- The scan counts the outages of the retained entries. -/
theorem len_distinctOutages (retained : List SLAResult) :
    (distinctOutages retained).len = (retained.map SLAResult.outage_id).toFinset.card := by
  have hcontains : ∀ (outages : OrdMap Symbol Nat) (o : Symbol),
      (retained.foldl (fun outages entry => outages.set entry.outage_id 1) outages).contains o =
        true ↔ outages.contains o = true ∨ o ∈ retained.map SLAResult.outage_id := by
    intro outages o
    induction retained generalizing outages with
    | nil => simp
    | cons entry retained ih =>
      rw [List.foldl_cons, ih, OrdMap.contains_set, List.map_cons, List.mem_cons]
      tauto
  have hkeys : (distinctOutages retained).keys.toFinset =
      (retained.map SLAResult.outage_id).toFinset := by
    ext o
    have hmem := hcontains OrdMap.empty o
    rw [OrdMap.contains_empty] at hmem
    rw [List.mem_toFinset, List.mem_toFinset, OrdMap.mem_keys, ← Option.isSome_iff_exists]
    simpa [distinctOutages, OrdMap.contains] using hmem
  have hnodup : (distinctOutages retained).keys.Nodup :=
    (OrdMap.keys_ordered _).imp fun h => ne_of_lt h
  rw [← OrdMap.length_keys, ← List.toFinset_card_of_nodup hnodup, hkeys]

section History

variable {s : Storage} {owners : Finset Symbol}

/-- Every retained slot is charged for one entry. -/
theorem sum_window (hx : (History.shards s).Exact SLAResult.outage_id) :
    ((History.shards s).window.map fun i => storedAt s (.histEntry i)).sum =
      History.len s * (bytesPerHistoryEntry + bytesPerHistoryEntryKey) := by
  have hcharge : ∀ i ∈ (History.shards s).window, storedAt s (.histEntry i) =
      bytesPerHistoryEntry + bytesPerHistoryEntryKey := fun i hi =>
    storedAt_of_stored (fun _ => rfl) ((hx.present i).mpr (ShardedLog.mem_window.mp hi))
  rw [List.map_congr_left hcharge, List.map_const', List.sum_replicate, ShardedLog.window,
    List.length_range', History.shards_len, smul_eq_mul]

/-- An outage has an index exactly when it owns a retained entry. -/
theorem index_ne_nil_iff (hx : (History.shards s).Exact SLAResult.outage_id) (o : Symbol) :
    History.entryIndicesForOutage s o ≠ [] ↔
      o ∈ (History.shards s).items.map SLAResult.outage_id := by
  rw [← List.length_pos_iff, length_entryIndicesForOutage hx, List.length_pos_iff,
    ShardedLog.itemsOf, ne_eq, List.filter_eq_nil_iff, List.mem_map]
  simp

/-- Every stored index key is charged for itself and for its slots. -/
theorem sum_owners (hx : (History.shards s).Exact SLAResult.outage_id)
    (hlen : (History.shards s).items.length = History.len s)
    (howners : ∀ o, o ∈ owners ↔ (s (.histIndex o)).isSome) :
    ∑ o ∈ owners, storedAt s (.histIndex o) =
      owners.card * bytesPerOutageIndexKey + History.len s * bytesPerHistoryIndexEntry := by
  have hcharge : ∀ o ∈ owners, storedAt s (.histIndex o) = bytesPerOutageIndexKey +
      ((History.shards s).index o).length * bytesPerHistoryIndexEntry := by
    intro o ho
    obtain ⟨indices, hindices⟩ := Option.isSome_iff_exists.mp ((howners o).mp ho)
    simp [storedAt, hindices, keyBytes, History.entryIndicesForOutage]
  have hall : ∀ a ∈ (History.shards s).items, a.outage_id ∈ owners := by
    intro a ha
    have hindex := (index_ne_nil_iff hx a.outage_id).mpr (List.mem_map_of_mem ha)
    rw [howners, Option.isSome_iff_ne_none]
    intro hnone
    exact hindex (by simp [History.entryIndicesForOutage, hnone])
  rw [Finset.sum_congr rfl hcharge, Finset.sum_add_distrib, Finset.sum_const, smul_eq_mul,
    ← Finset.sum_mul, hx.sum_index hall, hlen]

/-- The stored index keys are those of the outages of the retained entries and the empty ones. -/
theorem card_owners (hx : (History.shards s).Exact SLAResult.outage_id)
    (howners : ∀ o, o ∈ owners ↔ (s (.histIndex o)).isSome) :
    owners.card = ((History.shards s).items.map SLAResult.outage_id).toFinset.card +
      (emptyIndexes s).ncard := by
  have hfull : {o ∈ owners | History.entryIndicesForOutage s o ≠ []} =
      ((History.shards s).items.map SLAResult.outage_id).toFinset := by
    ext o
    rw [Finset.mem_filter, howners, List.mem_toFinset, ← index_ne_nil_iff hx,
      and_iff_right_iff_imp]
    intro hindex
    cases h : s (.histIndex o) <;> simp_all [History.entryIndicesForOutage]
  have hempty : (({o ∈ owners | ¬ History.entryIndicesForOutage s o ≠ []} : Finset Symbol) :
      Set Symbol) = emptyIndexes s := by
    ext o
    cases h : s (.histIndex o) <;>
      simp [emptyIndexes, howners, History.entryIndicesForOutage, h]
  rw [← Finset.card_filter_add_card_filter_not (History.entryIndicesForOutage s · ≠ []), hfull,
    ← hempty, Set.ncard_coe_finset]

/-- What is charged for all the stored keys, in three parts. -/
theorem storedBytes_eq (hx : (History.shards s).Exact SLAResult.outage_id)
    (howners : ∀ o, o ∈ owners ↔ (s (.histIndex o)).isSome) :
    storedBytes s = (plainKeys.map (storedAt s)).sum +
      ((History.shards s).window.map fun i => storedAt s (.histEntry i)).sum +
        ∑ o ∈ owners, storedAt s (.histIndex o) := by
  let keys : List StorageKey := plainKeys ++ ((History.shards s).window.map .histEntry ++
    owners.toList.map .histIndex)
  have hnodup : keys.Nodup := by
    refine List.Nodup.append plainKeys_nodup (List.Nodup.append ?_ ?_ ?_) ?_
    · exact List.Nodup.map (fun _ _ h => StorageKey.histEntry.inj h) List.nodup_range'
    · exact owners.nodup_toList.map fun _ _ h => StorageKey.histIndex.inj h
    · intro k hentry hindex
      obtain ⟨i, -, rfl⟩ := List.mem_map.mp hentry
      simp at hindex
    · intro k hplain hshard
      rcases List.mem_append.mp hshard with hentry | hindex
      · obtain ⟨i, -, rfl⟩ := List.mem_map.mp hentry
        simp [plainKeys] at hplain
      · obtain ⟨o, -, rfl⟩ := List.mem_map.mp hindex
        simp [plainKeys] at hplain
  have hsupport : Function.support (storedAt s) ⊆ (keys.toFinset : Set StorageKey) := by
    intro k hk
    have hstored : (s k).isSome := by
      cases h : s k <;> simp_all [storedAt]
    simp only [keys, List.coe_toFinset, Set.mem_ofPred_eq, List.mem_append, List.mem_map]
    by_cases hentry : ∃ i, k = .histEntry i
    · obtain ⟨i, rfl⟩ := hentry
      exact .inr (.inl ⟨i, ShardedLog.mem_window.mpr ((hx.present i).mp hstored), rfl⟩)
    · by_cases hindex : ∃ o, k = .histIndex o
      · obtain ⟨o, rfl⟩ := hindex
        exact .inr (.inr ⟨o, Finset.mem_toList.mpr ((howners o).mpr hstored), rfl⟩)
      · exact .inl (mem_plainKeys (not_exists.mp hentry) (not_exists.mp hindex))
  rw [storedBytes, finsum_eq_sum_of_support_subset _ hsupport, List.sum_toFinset _ hnodup,
    List.map_append, List.map_append, List.sum_append, List.sum_append, List.map_map,
    List.map_map, ← Nat.add_assoc]
  congr 1
  exact Finset.sum_map_toList ..

end History

/-! ## The estimates over a run -/

/-- What a footprint says about the storage it was estimated from. -/
structure Accounts (s : Storage) (footprint : Nat) : Prop where
  /-- The estimate misses the index keys without an index and a freeze flag that is cleared, and
  it counts the admin key of an admin that has renounced. -/
  accounted : footprint + (emptyIndexes s).ncard * bytesPerOutageIndexKey +
      (if s .freeze = some false then bytesFreezeKey else 0) =
    storedBytes s + if s .admin = none then bytesAdminKey else 0
  finite : (emptyIndexes s).Finite
  bounded : footprint ≤ 2060 + 180 * (History.readAllEntries s).length +
    150 * (customConfigs s).len

/-- The rent of one ledger for a footprint, rounded up to whole stroops. -/
def IsRent (footprint : Nat) (rent : Int) : Prop :=
  IsLeast {n : Int | footprint * rentWriteFeePer1kb ≤ n * (1024 * persistentRentRateDenominator)}
    rent

theorem bytesWhenPresent_le (s : Storage) (k : StorageKey) (bytes : Nat) :
    bytesWhenPresent s k bytes ≤ bytes := by
  unfold bytesWhenPresent
  split <;> omega

theorem bytesLazilyCreated_le (s : Storage) (custom_count : Nat) :
    bytesLazilyCreated s custom_count ≤ 728 + 150 * custom_count := by
  have hpresent := bytesWhenPresent_le s
  have hfreeze : (if isConfigFrozen s then bytesFreezeKey else 0) ≤ 20 := by
    split <;> decide
  have hcustom := hpresent .customConfig
    (bytesCustomConfigKeyBase + custom_count * bytesPerCustomSeverity)
  have hadmin := hpresent (.pending .admin) bytesPendingAdminKey
  have hoperator := hpresent (.pending .operator) bytesPendingOpKey
  have hadminTs := hpresent (.pendingTs .admin) bytesPendingAdminTsKey
  have hoperatorTs := hpresent (.pendingTs .operator) bytesPendingOpTsKey
  have hpause := hpresent .pauseInfo bytesPauseInfoKey
  have hlimit := hpresent .retentionLimit bytesRetentionLimitKey
  have hupdate := hpresent .lastCfgUpdate bytesLcfgupdKey
  have hrenounced := hpresent .adminRenounced bytesAdminrnKey
  have hregistry := hpresent .configRegistry bytesCfgregKey
  unfold bytesLazilyCreated
  calc _ ≤ 20 + bytesPendingAdminKey + bytesPendingOpKey + bytesPendingAdminTsKey +
        bytesPendingOpTsKey + (bytesCustomConfigKeyBase + custom_count * bytesPerCustomSeverity) +
        bytesPauseInfoKey + bytesRetentionLimitKey + bytesLcfgupdKey + bytesAdminrnKey +
        bytesCfgregKey := by gcongr
    _ = 728 + 150 * custom_count := by
      simp only [bytesPendingAdminKey, bytesPendingOpKey, bytesPendingAdminTsKey,
        bytesPendingOpTsKey, bytesCustomConfigKeyBase, bytesPerCustomSeverity, bytesPauseInfoKey,
        bytesRetentionLimitKey, bytesLcfgupdKey, bytesAdminrnKey, bytesCfgregKey]
      omega

/-- Dividing and adding one for a remainder rounds up. -/
theorem isRent_ceil (footprint : Nat) :
    IsRent footprint ((footprint : Int) * 1000 / 20480000 +
      if (footprint : Int) * 1000 % 20480000 > 0 then 1 else 0) := by
  constructor
  · show (footprint : Int) * 1000 ≤ _ * 20480000
    split <;> omega
  · intro n hn
    replace hn : (footprint : Int) * 1000 ≤ n * 20480000 := hn
    split <;> omega

theorem getRentEstimate_eq {s : Storage} {footprint : Nat}
    (h : getStorageFootprintEstimate s = .ok footprint) (hfits : footprint < 2 ^ 64) :
    ∃ rent, getRentEstimate s = .ok rent ∧ rent.footprint_bytes = footprint ∧
      IsRent footprint rent.estimated_rent_per_ledger := by
  have hversion : checkVersion s = .ok () := by
    cases hv : checkVersion s with
    | ok => rfl
    | error e => simp [getStorageFootprintEstimate, hv] at h
  have hnum : saturatingSigned 128 (footprint * rentWriteFeePer1kb) = footprint * 1000 := by
    simp only [saturatingSigned, signedMin, signedMax, rentWriteFeePer1kb]
    omega
  have hdenom : saturatingSigned 128 (1024 * persistentRentRateDenominator) = 20480000 := by decide
  have hrent : getRentEstimate s = .ok ⟨(footprint : Int) * 1000 / 20480000 +
      if (footprint : Int) * 1000 % 20480000 > 0 then 1 else 0, footprint, true,
      symbolShort "cap0046" rentMethod_wellFormed⟩ := by
    simp only [getRentEstimate, hversion, h, hnum, hdenom, ok_bind]
    rfl
  exact ⟨_, hrent, rfl, isRent_ceil footprint⟩

/-- Over every run in which `initialize` succeeds once, the footprint estimate is the charge for
the stored keys but for the keys named in `Accounts`, and the rent estimate is the rent for it. -/
theorem footprint_accounts (txs : List ContractTx) (hone : initializations txs = 1)
    (hfew : (recorded txs).length < 2 ^ 32) (hcustoms : (customConfigs (after txs)).len < 2 ^ 32) :
    ∃ footprint rent, getStorageFootprintEstimate (after txs) = .ok footprint ∧
      getRentEstimate (after txs) = .ok rent ∧ rent.footprint_bytes = footprint ∧
      Accounts (after txs) footprint ∧ IsRent footprint rent.estimated_rent_per_ledger := by
  have hinit : 0 < initializations txs := by omega
  have hs : Healthy (after txs) := healthy_of_stored (configSound_after hinit).version
  have hx := (historyExact_after hone hfew).1.exact
  have hlen := ShardedLog.length_items hs.regular.sound
  have hplain := sum_plainKeys fun k hk => eager_after hs.ne_empty hk
  have hfinite : {o | (after txs (.histIndex o)).isSome}.Finite :=
    (finite_after txs).preimage (fun _ _ _ _ h => StorageKey.histIndex.inj h)
  generalize after txs = s at hs hx hlen hplain hfinite hcustoms ⊢
  obtain ⟨owners, howners⟩ : ∃ owners : Finset Symbol,
      ∀ o, o ∈ owners ↔ (s (.histIndex o)).isSome :=
    ⟨hfinite.toFinset, fun o => hfinite.mem_toFinset⟩
  have hcard := card_owners hx howners
  have hestimate : ∃ footprint, getStorageFootprintEstimate s = .ok footprint ∧
      footprint = bytesAlwaysPresent + History.len s * (bytesPerHistoryEntry +
        bytesPerHistoryEntryKey + bytesPerHistoryIndexEntry) +
        ((History.shards s).items.map SLAResult.outage_id).toFinset.card * bytesPerOutageIndexKey +
        bytesLazilyCreated s ((s .customConfig).elim 0 OrdMap.len) := by
    refine ⟨_, ?_, rfl⟩
    simp only [getStorageFootprintEstimate, hs.checkVersion_ok, ok_bind, len_distinctOutages,
      hs.readAllEntries_eq]
    rfl
  obtain ⟨footprint, hestimated, hvalue⟩ := hestimate
  have haccounts : Accounts s footprint := by
    refine ⟨?_, ?_, ?_⟩
    · rw [storedBytes_eq hx howners, sum_window hx, sum_owners hx hlen howners, hcard, hvalue]
      simp only [Nat.mul_add, Nat.add_mul]
      linarith only [hplain]
    · refine hfinite.subset fun o ho => ?_
      simp [show s (.histIndex o) = some [] from ho]
    · have hdistinct := List.toFinset_card_le ((History.shards s).items.map SLAResult.outage_id)
      have hlazily := bytesLazilyCreated_le s ((s .customConfig).elim 0 OrdMap.len)
      have hcustom : (s .customConfig).elim 0 OrdMap.len = (customConfigs s).len := by
        cases h : s .customConfig <;> simp [customConfigs, h, OrdMap.len, OrdMap.empty]
      rw [List.length_map, hlen, History.shards_len] at hdistinct
      have hentries : bytesPerHistoryEntry + bytesPerHistoryEntryKey + bytesPerHistoryIndexEntry =
          156 := rfl
      have hkey : bytesPerOutageIndexKey = 24 := rfl
      have halways : bytesAlwaysPresent = 1332 := rfl
      rw [hvalue, hentries, hkey, halways, length_readAllEntries hs.regular.sound]
      omega
  have hfits : footprint < 2 ^ 64 := by
    have hbounded := haccounts.bounded
    have hwithin := hs.within
    have hlimit := hs.limit.2
    rw [length_readAllEntries hs.regular.sound] at hbounded
    simp only [WithinLimit] at hwithin
    simp only [maxHistorySize] at hlimit
    omega
  obtain ⟨rent, hrent, hfootprint, hleast⟩ := getRentEstimate_eq hestimated hfits
  exact ⟨footprint, rent, hestimated, hrent, hfootprint, haccounts, hleast⟩

theorem footprint_accounts_evictingRun :
    ∃ footprint rent, getStorageFootprintEstimate (after evictingRun) = .ok footprint ∧
      getRentEstimate (after evictingRun) = .ok rent ∧ rent.footprint_bytes = footprint ∧
      Accounts (after evictingRun) footprint ∧
      IsRent footprint rent.estimated_rent_per_ledger :=
  footprint_accounts evictingRun (by decide) (by decide) (by decide)

example : getStorageFootprintEstimate (after evictingRun) = .ok 1576 := by decide

end StorageEstimation

end ApexChainx
