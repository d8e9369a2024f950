import TaggedRows.Text.Numeral

/-!
# Source hashes and shards

A source id is hashed over its UTF-16 code units by a polynomial in 31 with 32-bit arithmetic that
wraps around.  A shard is the absolute value of the hash's remainder modulo the number of shards.
The remainder is taken first, so that the least hash, which has no absolute value of its own size,
finds its shard too.
-/

namespace TaggedRows

open TaggedRows.Text

/-- The UTF-16 code units of a character: one, or a pair of surrogates. -/
def utf16Units (c : Char) : List Nat :=
  let n := c.toNat
  if n < 0x10000 then [n] else [0xD800 + (n - 0x10000) / 1024, 0xDC00 + (n - 0x10000) % 1024]

/-- The polynomial hash of a source id. -/
def textHash (sourceId : String) : Int32 :=
  (sourceId.toList.flatMap utf16Units).foldl (fun h unit => h * 31 + Int32.ofNat unit) 0

/-- A number in base 36. -/
def base36 (n : Nat) : String := String.ofList (digits 36 n)

/-- The number of the shard that a hash falls into. -/
def shardNumber (hash : Int32) (shardCount : Nat) : Nat := (hash.toInt.tmod shardCount).natAbs

example : textHash "test" = 3556498 ∧ textHash "polygenelubricants" = -2147483648 := by decide

theorem shardNumber_lt (hash : Int32) {shardCount : Nat} (h : 0 < shardCount) :
    shardNumber hash shardCount < shardCount := by
  rw [shardNumber, Int.natAbs_tmod, Int.natAbs_natCast]
  exact Nat.mod_lt _ h

end TaggedRows
