import ApexChainx.Contract.Compute
import ApexChainx.Misc.XorMul

/-!
# Correlation ids of neighbouring workflows

The id of a workflow is the FNV-1a hash of its outage id and its ledger sequence. It tells apart
two ledgers of one outage, and two outages of one ledger whose ids differ in at most four
consecutive characters (`correlation_ids_separate`).
-/

namespace ApexChainx

open Misc

/-! ## The bytes of a symbol -/

theorem symbolChar_ascii {c : Char} (h : isSymbolChar c = true) : c.toNat < 128 := by
  delta isSymbolChar Char.isAlphanum Char.isAlpha Char.isUpper Char.isLower Char.isDigit at h
  simp only [Bool.or_eq_true, Bool.and_eq_true, decide_eq_true_eq, beq_iff_eq, ge_iff_le,
    UInt32.le_iff_toNat_le] at h
  rcases h with h | rfl
  · have hval : c.toNat = c.val.toNat := rfl
    have hupper : 'Z'.val.toNat = 90 := rfl
    have hlower : 'z'.val.toNat = 122 := rfl
    have hdigit : '9'.val.toNat = 57 := rfl
    omega
  · decide

theorem Symbol.ascii (outage_id : Symbol) : ∀ c ∈ outage_id.chars, c.toNat < 128 := fun c hc =>
  symbolChar_ascii (List.all_eq_true.mp outage_id.wellFormed.2 c hc)

/-- The word that a character is hashed as. -/
def charWord (c : Char) : BitVec 64 := BitVec.ofNat 64 c.toNat

theorem charWord_lt {c : Char} (h : c.toNat < 128) : (charWord c).toNat < 2 ^ 8 := by
  rw [charWord, BitVec.toNat_ofNat, Nat.mod_eq_of_lt (by omega)]
  omega

theorem charWord_inj {c d : Char} (hc : c.toNat < 128) (hd : d.toNat < 128)
    (h : charWord c = charWord d) : c = d := by
  have hnat := congrArg BitVec.toNat h
  rw [charWord, charWord, BitVec.toNat_ofNat, BitVec.toNat_ofNat, Nat.mod_eq_of_lt (by omega),
    Nat.mod_eq_of_lt (by omega)] at hnat
  rw [← Char.ofNat_toNat c, ← Char.ofNat_toNat d, hnat]

theorem map_charWord_inj {as bs : List Char} (has : ∀ c ∈ as, c.toNat < 128)
    (hbs : ∀ c ∈ bs, c.toNat < 128) (h : as.map charWord = bs.map charWord) : as = bs := by
  induction as generalizing bs with
  | nil => exact (List.map_eq_nil_iff.mp h.symm).symm
  | cons a as ih =>
    cases bs with
    | nil => cases h
    | cons b bs =>
      simp only [List.map_cons, List.cons.injEq] at h
      rw [charWord_inj (has a List.mem_cons_self) (hbs b List.mem_cons_self) h.1,
        ih (fun c hc => has c (List.mem_cons_of_mem _ hc))
          (fun c hc => hbs c (List.mem_cons_of_mem _ hc)) h.2]

theorem utf8EncodeChar_ascii {c : Char} (h : c.toNat < 128) :
    String.utf8EncodeChar c = [c.val.toUInt8] := by
  refine String.utf8EncodeChar_eq_singleton (Char.utf8Size_eq_one_iff.mpr ?_)
  exact UInt32.le_iff_toNat_le.mpr (Nat.le_of_lt_succ h)

/-- A symbol's string has one byte for each character, its code. -/
theorem stringBytes_eq (outage_id : Symbol) :
    outage_id.stringBytes.map (fun byte => BitVec.ofNat 64 byte.toNat) =
      outage_id.chars.map charWord := by
  have hall : ∀ cs : List Char, (∀ c ∈ cs, c.toNat < 128) →
      (cs.flatMap String.utf8EncodeChar).map (fun byte => BitVec.ofNat 64 byte.toNat) =
        cs.map charWord := by
    intro cs hcs
    induction cs with
    | nil => rfl
    | cons c cs ih =>
      have hc := hcs c List.mem_cons_self
      have hbyte : c.val.toUInt8.toNat = c.toNat := by
        rw [UInt32.toNat_toUInt8]
        exact Nat.mod_eq_of_lt (Nat.lt_trans hc (by decide))
      rw [List.flatMap_cons, utf8EncodeChar_ascii hc, List.map_append,
        ih fun d hd => hcs d (List.mem_cons_of_mem _ hd), List.map_cons, List.map_cons, hbyte]
      rfl
  exact hall _ outage_id.ascii

/-! ## The id as a chain of steps -/

/-- The word that the ledger sequence is hashed as: the sequence in both halves. -/
def sequenceWord (ledger_sequence : Nat) : BitVec 64 :=
  BitVec.ofNat 64 ledger_sequence <<< 32 ||| BitVec.ofNat 64 ledger_sequence

/-- The hash of the outage id, before the ledger sequence. -/
def outageHash (outage_id : Symbol) : BitVec 64 :=
  (outage_id.chars.map charWord).foldl (xorMul fnvPrime) 0xcbf29ce484222325#64

theorem generateCorrelationId_eq (outage_id : Symbol) (ledger_sequence : Nat) :
    generateCorrelationId outage_id ledger_sequence =
      xorMul fnvPrime (outageHash outage_id) (sequenceWord ledger_sequence) := by
  rw [outageHash, List.foldl_map]
  rfl

/-- Both bodies run the same chain. -/
theorem generateCorrelationIdOfString_eq (outage_id : Symbol) (ledger_sequence : Nat) :
    generateCorrelationIdOfString outage_id ledger_sequence =
      generateCorrelationId outage_id ledger_sequence := by
  rw [generateCorrelationId_eq, outageHash, ← stringBytes_eq, List.foldl_map]
  rfl

/-- The sequence is the lower half of its word. -/
theorem sequenceWord_inj {a b : BitVec 32} (h : sequenceWord a.toNat = sequenceWord b.toNat) :
    a = b := by
  apply BitVec.eq_of_getLsbD_eq
  intro i hi
  have hbit := congrArg (fun word => BitVec.getLsbD word i) h
  have hlow : ∀ c : BitVec 32, (sequenceWord c.toNat).getLsbD i = c.getLsbD i := by
    intro c
    have hfits : i < 64 := by omega
    simp [sequenceWord, hi, hfits]
  rwa [hlow, hlow] at hbit

/-! ## Separation -/

/-- The two ids have equal length and agree outside `n` consecutive characters. -/
def AgreeOutside (n : Nat) (a b : Symbol) : Prop :=
  ∃ front mid mid' back, a.chars = front ++ mid ++ back ∧ b.chars = front ++ mid' ++ back ∧
    mid.length = mid'.length ∧ mid.length ≤ n

/-- Outages that differ in at most four consecutive characters have different hashes. -/
theorem outageHash_inj_of_agreeOutside {a b : Symbol} (h : AgreeOutside 4 a b)
    (hsame : outageHash a = outageHash b) : a = b := by
  obtain ⟨front, mid, mid', back, ha, hb, hlen, hshort⟩ := h
  have hmid : ∀ c ∈ mid, c.toNat < 128 := fun c hc => a.ascii c (by simp [ha, hc])
  have hmid' : ∀ c ∈ mid', c.toNat < 128 := fun c hc => b.ascii c (by simp [hb, hc])
  have hwords : ∀ cs : List Char, (∀ c ∈ cs, c.toNat < 128) →
      ∀ word ∈ cs.map charWord, word.toNat < 2 ^ 8 := by
    intro cs hcs word hword
    obtain ⟨c, hc, rfl⟩ := List.mem_map.mp hword
    exact charWord_lt (hcs c hc)
  simp only [outageHash, ha, hb, List.map_append, List.foldl_append,
    foldl_xorMul_inj fnvPrime_unit] at hsame
  rw [fnv_window_inj (by simpa using hlen) (by simpa using hshort) (hwords mid hmid)
    (hwords mid' hmid')] at hsame
  apply Symbol.ext
  rw [ha, hb, map_charWord_inj hmid hmid' hsame]

/-- The ids of neighbouring workflows differ, whichever body computes them. -/
structure SeparatesNeighbours : Prop where
  ledgers : ∀ (outage_id : Symbol) (a b : BitVec 32), a ≠ b →
    generateCorrelationId outage_id a.toNat ≠ generateCorrelationId outage_id b.toNat
  outages : ∀ (ledger_sequence : BitVec 32) (a b : Symbol), a ≠ b → AgreeOutside 4 a b →
    generateCorrelationId a ledger_sequence.toNat ≠ generateCorrelationId b ledger_sequence.toNat
  bodies : ∀ (outage_id : Symbol) (ledger_sequence : BitVec 32),
    generateCorrelationIdOfString outage_id ledger_sequence.toNat =
      generateCorrelationId outage_id ledger_sequence.toNat

theorem correlation_ids_separate : SeparatesNeighbours where
  ledgers := by
    intro outage_id a b hne hsame
    rw [generateCorrelationId_eq, generateCorrelationId_eq, xorMul_inj_word fnvPrime_unit] at hsame
    exact hne (sequenceWord_inj hsame)
  outages := by
    intro ledger_sequence a b hne hagree hsame
    rw [generateCorrelationId_eq, generateCorrelationId_eq, xorMul_inj_hash fnvPrime_unit] at hsame
    exact hne (outageHash_inj_of_agreeOutside hagree hsame)
  bodies := fun outage_id ledger_sequence => generateCorrelationIdOfString_eq _ _

end ApexChainx
