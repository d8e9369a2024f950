import TaggedRows.Proofs.RowKey.Format
import TaggedRows.Proofs.RowKey.Window
import TaggedRows.Proofs.Text.CanonicalNumeral

/-!
# Hashes and the listed shards

A key is written in the shard of its hash, and a scan goes over the shards that its layout lists.
The two agree: whatever the hash, its shard is listed, and a row key begins with the stem of this
shard and of no other (`KeyLayout.shardNames_cover`).

* **The names are canonical numerals.**  At each position of the list stands the canonical numeral
  of the position (`KeyLayout.getElem?_shardNames_iff`), so no two names are equal and none is
  spelled in two ways.
* **No word is too short.**  The number of the shard comes from a remainder of 64-bit words, of
  which it keeps the lower half.  The remainder is no longer than the hash, so its absolute value
  fits into 32 bits, also for the least hash and for numbers of shards that no signed 32-bit number
  reaches (`toNat_shardWord`).
-/

namespace TaggedRows

open TaggedRows.Text

/-! ## The number of a shard in machine words -/

/-- The number of the shard of a hash, computed in words: the remainder of 64-bit numbers, which has
the sign of the hash, its absolute value, and the lower 32 bits of that. -/
def shardWord (hash : Int32) (shardCount : UInt32) : UInt32 :=
  (hash.toInt64 % shardCount.toUInt64.toInt64).abs.toUInt64.toUInt32

/-- Without a sign, every 64-bit number has its absolute value, the least one too. -/
theorem toNat_toUInt64_abs (i : Int64) : i.abs.toUInt64.toNat = i.toInt.natAbs := by
  have hbits : i.toInt = if i.toBitVec.msb then (i.toBitVec.toNat : Int) - (2 ^ 64 : Nat)
      else i.toBitVec.toNat := BitVec.toInt_eq_msb_cond i.toBitVec
  have habs : i.abs.toUInt64.toNat = if i.toBitVec.msb then 2 ^ 64 - i.toBitVec.toNat
      else i.toBitVec.toNat := BitVec.toNat_abs
  have hlt := i.toBitVec.isLt
  rw [hbits, habs]
  split <;> omega

theorem toInt_toInt64_of_toUInt64 (n : UInt32) : n.toUInt64.toInt64.toInt = n.toNat := by
  have hlt := n.toNat_lt
  have hword : n.toUInt64.toBitVec.toNat = n.toNat := UInt32.toNat_toUInt64 n
  have hsmall : 2 * n.toUInt64.toBitVec.toNat < 2 ^ 64 := by omega
  rw [← hword]
  exact BitVec.toInt_eq_toNat_of_lt hsmall

/-- The words hold the number of the shard, whatever the hash and the number of shards. -/
theorem toNat_shardWord (hash : Int32) (shardCount : UInt32) :
    (shardWord hash shardCount).toNat = shardNumber hash shardCount.toNat := by
  have hrem : (hash.toInt64 % shardCount.toUInt64.toInt64).toInt =
      hash.toInt.tmod shardCount.toNat := by
    rw [Int64.toInt_mod, Int32.toInt_toInt64, toInt_toInt64_of_toUInt64]
  have hfits : shardNumber hash shardCount.toNat < 2 ^ 32 := by
    have hle : shardNumber hash shardCount.toNat ≤ hash.toInt.natAbs := by
      rw [shardNumber, Int.natAbs_tmod]
      exact Nat.mod_le ..
    have hfirst := hash.le_toInt
    have hlast := hash.toInt_lt
    omega
  rw [shardWord, UInt64.toNat_toUInt32, toNat_toUInt64_abs, hrem]
  exact Nat.mod_eq_of_lt hfits

namespace KeyLayout

variable {keys : KeyLayout} {shard : String}

/-! ## The list of shards -/

theorem getElem?_shardNames {i : Nat} (h : i < keys.shardCount) :
    keys.shardNames[i]? = some (base36 i) := by
  rw [shardNames, List.getElem?_map, List.getElem?_range h]
  rfl

theorem length_shardNames (keys : KeyLayout) : keys.shardNames.length = keys.shardCount := by
  rw [shardNames, List.length_map, List.length_range]

theorem nodup_shardNames (keys : KeyLayout) : keys.shardNames.Nodup :=
  List.nodup_range.map fun _ _ h => base36_inj.1 h

/-- At each position of the list stands the canonical numeral of the position, and no position is
left out. -/
theorem getElem?_shardNames_iff {i : Nat} :
    keys.shardNames[i]? = some shard ↔
      i < keys.shardCount ∧ CanonicalNumeral 36 shard.toList ∧ value 36 shard.toList = i := by
  constructor
  · intro h
    have hlt : i < keys.shardCount := by
      rw [← keys.length_shardNames]
      exact (List.getElem?_eq_some_iff.1 h).1
    rw [getElem?_shardNames hlt] at h
    cases h
    rw [base36, String.toList_ofList]
    exact ⟨hlt, canonicalNumeral_digits (by omega) (by omega) i, value_digits (by omega) (by omega) i⟩
  · rintro ⟨hlt, hcanonical, rfl⟩
    rw [getElem?_shardNames hlt, base36, hcanonical.digits_value (by omega) (by omega),
      String.ofList_toList]

/-- A row key begins with the stem of the shard of its source, and of no other shard. -/
theorem rowId_begins_iff {sourceId : String} {millis : Int} {i : Nat} :
    (∃ rest, keys.rowId sourceId millis = keys.keyPrefix ++ base36 i ++ "_" ++ rest) ↔
      i = shardNumber (textHash sourceId) keys.shardCount := by
  rw [rowId_eq_shardStem_append]
  constructor
  · rintro ⟨rest, hrow⟩
    exact (shardStem_append_inj hrow).1.symm
  · rintro rfl
    exact ⟨_, rfl⟩

/-! ## Main result -/

/-- Every hash lands in one of the listed shards.  The list holds the canonical numerals of the
numbers below the number of shards, each at the position of its number.  The shard of a hash stands
at the absolute value of the hash's remainder, which is the number that machine words give; and a
row key begins with the prefix, the shard of its source and a separator, and with no other shard of
the list in its place. -/
theorem shardNames_cover (keys : KeyLayout) :
    keys.shardNames.length = keys.shardCount ∧ keys.shardNames.Nodup ∧
    (∀ (i : Nat) (shard : String), keys.shardNames[i]? = some shard ↔
      i < keys.shardCount ∧ CanonicalNumeral 36 shard.toList ∧ value 36 shard.toList = i) ∧
    (∀ hash : Int32, ∃ shard, shardOfHash hash keys.shardCount = .ok shard ∧
      keys.shardNames[(hash.toInt.tmod keys.shardCount).natAbs]? = some shard) ∧
    (∀ (hash : Int32) (shardCount : UInt32), shardCount.toNat = keys.shardCount →
      (shardWord hash shardCount).toNat = (hash.toInt.tmod keys.shardCount).natAbs) ∧
    (∀ (sourceId : String) (millis : Int), ∃ shard ∈ keys.shardNames,
      shardOfHash (textHash sourceId) keys.shardCount = .ok shard ∧
      ∀ other ∈ keys.shardNames,
        (∃ rest, keys.rowId sourceId millis = keys.keyPrefix ++ other ++ "_" ++ rest) ↔
          other = shard) := by
  have hlisted : ∀ hash : Int32, keys.shardNames[shardNumber hash keys.shardCount]? =
      some (base36 (shardNumber hash keys.shardCount)) := fun hash =>
    getElem?_shardNames (shardNumber_lt hash keys.shardCount_pos)
  refine ⟨keys.length_shardNames, keys.nodup_shardNames, ?_, ?_, ?_, ?_⟩
  · intro i shard
    exact getElem?_shardNames_iff
  · intro hash
    exact ⟨_, keys.shardOfHash_eq hash, hlisted hash⟩
  · intro hash shardCount hcount
    rw [toNat_shardWord, hcount]
    rfl
  · intro sourceId millis
    refine ⟨_, List.mem_of_getElem? (hlisted (textHash sourceId)), keys.shardOfHash_eq _, ?_⟩
    intro other hother
    obtain ⟨i, -, rfl⟩ := List.mem_map.1 hother
    rw [rowId_begins_iff, base36_inj]

/-- The least hash, in as many shards as there can be. -/
theorem shardNames_cover_least :
    let keys : KeyLayout := { keyPrefix := "log_", shardCount := 4294967295 }
    shardOfHash Int32.minValue keys.shardCount = .ok "zik0zk" ∧
      keys.shardNames[2147483648]? = some "zik0zk" ∧
      (shardWord Int32.minValue 4294967295).toNat = 2147483648 := by
  intro keys
  obtain ⟨-, -, hnames, hhash, hword, -⟩ := keys.shardNames_cover
  have hnumber : (Int32.minValue.toInt.tmod keys.shardCount).natAbs = 2147483648 := by decide
  have hcanonical : CanonicalNumeral 36 "zik0zk".toList :=
    ⟨by decide, by simp [isBase36Digit, digitValue], by decide⟩
  have hname : keys.shardNames[2147483648]? = some "zik0zk" :=
    (hnames _ _).2 ⟨by decide, hcanonical, by decide⟩
  obtain ⟨shard, hshard, hat⟩ := hhash Int32.minValue
  rw [hnumber, hname, Option.some.injEq] at hat
  exact ⟨hat ▸ hshard, hname, (hword _ _ rfl).trans hnumber⟩

end KeyLayout

end TaggedRows
