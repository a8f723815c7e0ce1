import ApexChainx.Contract.Reads

/-!
# Storage footprint and rent

The estimates of `storage_estimation.rs`: a byte constant for each kind of key, summed over what
is stored, and the rent of one ledger derived from the sum. Every count is a `u32`, so the `u64`
sum does not overflow.
-/

namespace ApexChainx.StorageEstimation

open Misc

/-! ## Byte constants -/

/-- `BYTES_PER_HISTORY_ENTRY`. -/
def bytesPerHistoryEntry : Nat := 120

/-- `BYTES_PER_CUSTOM_SEVERITY`. -/
def bytesPerCustomSeverity : Nat := 150

/-- `BYTES_ADMIN_KEY`. -/
def bytesAdminKey : Nat := 80

/-- `BYTES_OPERATOR_KEY`. -/
def bytesOperatorKey : Nat := 80

/-- `BYTES_CONFIG_KEY`. -/
def bytesConfigKey : Nat := 800

/-- `BYTES_PAUSED_KEY`. -/
def bytesPausedKey : Nat := 20

/-- `BYTES_FREEZE_KEY`. -/
def bytesFreezeKey : Nat := 20

/-- `BYTES_STATS_KEY`. -/
def bytesStatsKey : Nat := 160

/-- `BYTES_CALC_COUNTS_KEY`. -/
def bytesCalcCountsKey : Nat := 32

/-- `BYTES_VIOL_COUNTS_KEY`. -/
def bytesViolCountsKey : Nat := 32

/-- `BYTES_LAST_CALC_TS_KEY`. -/
def bytesLastCalcTsKey : Nat := 32

/-- `BYTES_LAST_VIOL_TS_KEY`. -/
def bytesLastViolTsKey : Nat := 32

/-- `BYTES_STORAGE_VERSION_KEY`. -/
def bytesStorageVersionKey : Nat := 16

/-- `BYTES_HISTORY_META_BASE`, for `HISTH`, `HISTT` and `HISTLEN` together. -/
def bytesHistoryMetaBase : Nat := 32

/-- `BYTES_PER_HISTORY_ENTRY_KEY`. -/
def bytesPerHistoryEntryKey : Nat := 16

/-- `BYTES_PER_HISTORY_INDEX_ENTRY`. -/
def bytesPerHistoryIndexEntry : Nat := 20

/-- `BYTES_PER_OUTAGE_INDEX_KEY`. -/
def bytesPerOutageIndexKey : Nat := 24

/-- `BYTES_CFGCNT_KEY`. -/
def bytesCfgcntKey : Nat := 16

/-- `BYTES_CUSTOM_CONFIG_KEY_BASE`. -/
def bytesCustomConfigKeyBase : Nat := 48

/-- `BYTES_RETENTION_LIMIT_KEY`. -/
def bytesRetentionLimitKey : Nat := 16

/-- `BYTES_PENDING_ADMIN_KEY`. -/
def bytesPendingAdminKey : Nat := 80

/-- `BYTES_PENDING_OP_KEY`. -/
def bytesPendingOpKey : Nat := 80

/-- `BYTES_PENDING_ADMIN_TS_KEY`. -/
def bytesPendingAdminTsKey : Nat := 24

/-- `BYTES_PENDING_OP_TS_KEY`. -/
def bytesPendingOpTsKey : Nat := 24

/-- `BYTES_PAUSE_INFO_KEY`. -/
def bytesPauseInfoKey : Nat := 200

/-- `BYTES_LCFGUPD_KEY`. -/
def bytesLcfgupdKey : Nat := 16

/-- `BYTES_ADMINRN_KEY`. -/
def bytesAdminrnKey : Nat := 20

/-- `BYTES_CFGREG_KEY`. -/
def bytesCfgregKey : Nat := 200

/-! ## Footprint -/

/-- `if inst.has(&key) { footprint += bytes }`, the amount added. -/
def bytesWhenPresent (s : Storage) (key : StorageKey) (bytes : Nat) : Nat :=
  if (s key).isSome then bytes else 0

/-- The outages of the retained entries: the loop that fills `distinct_outages`. -/
def distinctOutages (retained : List SLAResult) : OrdMap Symbol Nat :=
  retained.foldl (fun outages entry => outages.set entry.outage_id 1) OrdMap.empty

/-- The keys counted whatever is stored. -/
def bytesAlwaysPresent : Nat :=
  bytesAdminKey + bytesOperatorKey + bytesConfigKey + bytesPausedKey + bytesStatsKey +
    bytesCalcCountsKey + bytesViolCountsKey + bytesLastCalcTsKey + bytesLastViolTsKey +
    bytesStorageVersionKey + bytesCfgcntKey + bytesHistoryMetaBase

/-- The keys created lazily, counted only when present; the freeze flag only while set. -/
def bytesLazilyCreated (s : Storage) (custom_count : Nat) : Nat :=
  (if isConfigFrozen s then bytesFreezeKey else 0) +
    bytesWhenPresent s (.pending .admin) bytesPendingAdminKey +
    bytesWhenPresent s (.pending .operator) bytesPendingOpKey +
    bytesWhenPresent s (.pendingTs .admin) bytesPendingAdminTsKey +
    bytesWhenPresent s (.pendingTs .operator) bytesPendingOpTsKey +
    bytesWhenPresent s .customConfig
      (bytesCustomConfigKeyBase + custom_count * bytesPerCustomSeverity) +
    bytesWhenPresent s .pauseInfo bytesPauseInfoKey +
    bytesWhenPresent s .retentionLimit bytesRetentionLimitKey +
    bytesWhenPresent s .lastCfgUpdate bytesLcfgupdKey +
    bytesWhenPresent s .adminRenounced bytesAdminrnKey +
    bytesWhenPresent s .configRegistry bytesCfgregKey

/-- `get_storage_footprint_estimate`. -/
def getStorageFootprintEstimate (s : Storage) : Except SLAError Nat := do
  checkVersion s
  let history_len := History.len s
  let custom_count := (s .customConfig).elim 0 OrdMap.len
  let outage_count := (distinctOutages (History.readAllEntries s)).len
  pure (bytesAlwaysPresent +
    history_len * (bytesPerHistoryEntry + bytesPerHistoryEntryKey + bytesPerHistoryIndexEntry) +
    outage_count * bytesPerOutageIndexKey + bytesLazilyCreated s custom_count)

/-! ## Rent -/

/-- `RENT_WRITE_FEE_PER_1KB`. -/
def rentWriteFeePer1kb : Int := 1000

/-- `PERSISTENT_RENT_RATE_DENOMINATOR`. -/
def persistentRentRateDenominator : Int := 20000

theorem rentMethod_wellFormed :
    "cap0046".toList.length ≤ 32 ∧ "cap0046".toList.all isSymbolChar = true := by decide

/-- `RentEstimate`. -/
structure RentEstimate where
  estimated_rent_per_ledger : Int
  footprint_bytes : Nat
  is_approximation : Bool
  method : Symbol
  deriving DecidableEq, Repr

/-- `get_rent_estimate`. -/
def getRentEstimate (s : Storage) : Except SLAError RentEstimate := do
  checkVersion s
  let footprint ← getStorageFootprintEstimate s
  let num := saturatingSigned 128 (footprint * rentWriteFeePer1kb)
  let denom := saturatingSigned 128 (1024 * persistentRentRateDenominator)
  let rent_per_ledger := num / denom + if num % denom > 0 then 1 else 0
  pure ⟨rent_per_ledger, footprint, true, symbolShort "cap0046" rentMethod_wellFormed⟩

end ApexChainx.StorageEstimation
