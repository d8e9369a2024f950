import Mathlib.Data.List.Nodup
import TaggedRows.Proofs.RowKey.Parse
import TaggedRows.Proofs.Text.NumeralOrder

/-!
# Time windows

The ranges of a time window bound the text of row keys, while the window itself is a span of
numbers.  Two facts bring the two together.

* **A range stays within its shard.**  Both of its ends begin with the stem of the shard, the text
  up to and with the first separator, so every row between them begins with it too
  (`RowRange.contains_span_append`).  Stems of different shards never begin one and the same row
  (`KeyLayout.shardStem_append_inj`), for no digit of a shard is a separator; that the separator
  sorts between digits and letters does not matter.
* **Behind the stem the time decides.**  Times with as many digits as the bounds compare with them
  like numbers, whatever source id follows (`intText_append_lt_iff`).

Since a hash always falls into one of the listed shards, a key is in exactly one of the ranges if
its time is in the window, and in none otherwise (`KeyLayout.countP_windowRanges`).
-/

namespace TaggedRows

open TaggedRows.Text TaggedRows.Time

/-! ## Ranges of texts that begin alike -/

namespace RowRange

/-- No row is in both ranges. -/
def Disjoint (r s : RowRange) : Prop := ∀ row, ¬ (r.contains row = true ∧ s.contains row = true)

theorem append_lt_append_left_iff (stem a b : String) : stem ++ a < stem ++ b ↔ a < b := by
  rw [String.lt_iff, String.lt_iff, String.toList_append, String.toList_append]
  exact Text.append_lt_append_left_iff ..

/-- A range between two texts with a common stem holds the rows that begin with the stem and go on
between the ends of the two. -/
theorem contains_span_append {stem a b row : String} :
    (span (stem ++ a) (stem ++ b)).contains row = true ↔
      ∃ rest, row = stem ++ rest ∧ a ≤ rest ∧ rest < b := by
  have hcontains : (span (stem ++ a) (stem ++ b)).contains row = true ↔
      stem ++ a ≤ row ∧ row < stem ++ b := by
    simp [contains, span, afterStart, beforeEnd]
  rw [hcontains]
  constructor
  · rintro ⟨hstart, hstop⟩
    have hbelow : ¬ row.toList < stem.toList ++ a.toList := by
      intro hlt
      have hrow : row < stem ++ a := by rwa [String.lt_iff, String.toList_append]
      exact String.not_lt.2 hstart hrow
    have habove : row.toList < stem.toList ++ b.toList := by
      rwa [String.lt_iff, String.toList_append] at hstop
    obtain ⟨rest, hrest⟩ := exists_append_of_between hbelow habove
    have hrow : row = stem ++ String.ofList rest := by
      apply String.toList_injective
      simp [hrest]
    rw [hrow] at hstart hstop
    refine ⟨_, hrow, String.not_lt.1 fun hlt => ?_, (append_lt_append_left_iff ..).1 hstop⟩
    exact String.not_lt.2 hstart ((append_lt_append_left_iff ..).2 hlt)
  · rintro ⟨rest, rfl, hstart, hstop⟩
    refine ⟨String.not_lt.1 fun hlt => ?_, (append_lt_append_left_iff ..).2 hstop⟩
    exact String.not_lt.2 hstart ((append_lt_append_left_iff ..).1 hlt)

end RowRange

/-! ## Times -/

/-- The number of decimal digits of an integer, its sign apart. -/
def decimalLength (i : Int) : Nat := (digits 10 i.natAbs).length

theorem toList_intText_of_nonneg {i : Int} (h : 0 ≤ i) :
    (intText i).toList = digits 10 i.natAbs := by
  have hpos : ¬ i < 0 := by omega
  rw [intText, if_neg hpos, natText, String.toList_ofList]

/-- Times of the same length are in their order, and what stands behind them counts only if they are
equal. -/
theorem intText_append_lt_append_iff {i j : Int} (hi : 0 ≤ i) (hj : 0 ≤ j)
    (h : decimalLength i = decimalLength j) (a b : String) :
    intText i ++ a < intText j ++ b ↔ i < j ∨ (i = j ∧ a < b) := by
  have hlt : i.natAbs < j.natAbs ↔ i < j := by omega
  have heq : i.natAbs = j.natAbs ↔ i = j := by omega
  rw [String.lt_iff, String.toList_append, String.toList_append, toList_intText_of_nonneg hi,
    toList_intText_of_nonneg hj, digits_append_lt_append_iff (by omega) (by omega) h, hlt, heq,
    String.lt_iff]

/-- A time with something behind it is below another time of the same length exactly if it is
earlier. -/
theorem intText_append_lt_iff {i j : Int} (hi : 0 ≤ i) (hj : 0 ≤ j)
    (h : decimalLength i = decimalLength j) (rest : String) :
    intText i ++ rest < intText j ↔ i < j := by
  have happend := intText_append_lt_append_iff hi hj h rest ""
  have hend : ¬ rest < "" := by
    rw [String.lt_iff]
    exact List.not_lt_nil rest.toList
  rw [String.append_empty] at happend
  rw [happend, or_iff_left fun hequal => hend hequal.2]

namespace KeyLayout

variable {keys : KeyLayout}

/-! ## Stems of shards -/

/-- What all keys of a shard begin with: the prefix, the digits of the shard and a separator. -/
def shardStem (keys : KeyLayout) (shard : Nat) : String := keys.keyPrefix ++ base36 shard ++ "_"

theorem rowId_eq_shardStem_append (keys : KeyLayout) (sourceId : String) (millis : Int) :
    keys.rowId sourceId millis = keys.shardStem (shardNumber (textHash sourceId) keys.shardCount) ++
      (intText millis ++ ("_" ++ sourceId)) := by
  simp [rowId, RowKey.text, shardStem, String.append_assoc]

theorem mark_not_mem_base36 (n : Nat) : '_' ∉ (base36 n).toList := by
  intro hmem
  have hdigit := isBase36Digit_of_mem_digits (n := n) (by simpa [base36] using hmem)
  exact absurd hdigit (by decide)

theorem base36_inj {m n : Nat} : base36 m = base36 n ↔ m = n := by
  constructor
  · intro h
    have hlists : digits 36 m = digits 36 n := by simpa [base36] using congrArg String.toList h
    exact (digits_inj (by omega) (by omega)).1 hlists
  · rintro rfl
    rfl

/-- A row begins with the stem of at most one shard. -/
theorem shardStem_append_inj {i j : Nat} {a b : String}
    (h : keys.shardStem i ++ a = keys.shardStem j ++ b) : i = j ∧ a = b := by
  have htext : ∀ (n : Nat) (rest : String), (keys.shardStem n ++ rest).toList =
      keys.keyPrefix.toList ++ ((base36 n).toList ++ '_' :: rest.toList) := by
    intro n rest
    simp [shardStem]
  have hlists := congrArg String.toList h
  rw [htext, htext] at hlists
  obtain ⟨hshard, hrest⟩ := append_mark_inj (mark_not_mem_base36 i) (mark_not_mem_base36 j)
    (List.append_cancel_left hlists)
  exact ⟨base36_inj.1 (String.toList_injective hshard), String.toList_injective hrest⟩

/-! ## The ranges of a window -/

/-- The range of a shard's keys from a time on and up to another. -/
def shardRange (keys : KeyLayout) (shard : Nat) (begin stop : Int) : RowRange :=
  .span (keys.shardStem shard ++ intText begin) (keys.shardStem shard ++ intText stop)

theorem windowRanges_eq {begin stop : Instant} (h : stop.before begin = false) :
    keys.windowRanges begin stop = .ok ((List.range keys.shardCount).map fun shard =>
      keys.shardRange shard begin.millis (stop.millis + windowPad)) := by
  have horder : ¬ stop.before begin = true := by simp [h]
  rw [windowRanges, if_neg horder, shardNames, List.map_map]
  rfl

/-- Ranges of different shards have no row in common. -/
theorem disjoint_shardRange {i j : Nat} (h : i ≠ j) (begin stop : Int) :
    (keys.shardRange i begin stop).Disjoint (keys.shardRange j begin stop) := by
  rintro row ⟨hi, hj⟩
  obtain ⟨a, ha, -⟩ := RowRange.contains_span_append.1 hi
  obtain ⟨b, hb, -⟩ := RowRange.contains_span_append.1 hj
  exact h (shardStem_append_inj (ha.symm.trans hb)).1

/-- The range of a shard holds the keys of its sources whose time is in the window. -/
theorem contains_shardRange_iff {shard : Nat} {begin stop millis : Int} {sourceId : String}
    (hbegin : 0 ≤ begin) (hstop : 0 ≤ stop) (hmillis : 0 ≤ millis)
    (hlength : decimalLength begin = decimalLength stop)
    (hlength' : decimalLength millis = decimalLength begin) :
    (keys.shardRange shard begin stop).contains (keys.rowId sourceId millis) = true ↔
      shard = shardNumber (textHash sourceId) keys.shardCount ∧ begin ≤ millis ∧ millis < stop := by
  have hafter : intText begin ≤ intText millis ++ ("_" ++ sourceId) ↔ begin ≤ millis := by
    rw [← String.not_lt, intText_append_lt_iff hmillis hbegin hlength']
    omega
  have hbefore : intText millis ++ ("_" ++ sourceId) < intText stop ↔ millis < stop :=
    intText_append_lt_iff hmillis hstop (hlength'.trans hlength) _
  rw [shardRange, RowRange.contains_span_append, rowId_eq_shardStem_append]
  constructor
  · rintro ⟨rest, hrow, hstart, hend⟩
    obtain ⟨hshard, rfl⟩ := shardStem_append_inj hrow
    exact ⟨hshard.symm, hafter.1 hstart, hbefore.1 hend⟩
  · rintro ⟨rfl, hstart, hend⟩
    exact ⟨_, rfl, hafter.2 hstart, hbefore.2 hend⟩

/-- Time windows are exact.  The ranges of a window share no row; a key whose time has as many
digits as the bounds is in exactly one of them if its time is in the window, and in none
otherwise. -/
theorem countP_windowRanges (keys : KeyLayout) (begin stop : Instant)
    (hle : stop.before begin = false) (hbegin : 0 ≤ begin.millis) (hstop : 0 ≤ stop.millis + 1000)
    (hlength : decimalLength begin.millis = decimalLength (stop.millis + 1000)) :
    ∃ ranges, keys.windowRanges begin stop = .ok ranges ∧ ranges.Pairwise RowRange.Disjoint ∧
      ∀ (sourceId : String) (millis : Int), 0 ≤ millis →
        decimalLength millis = decimalLength begin.millis →
        ranges.countP (fun range => range.contains (keys.rowId sourceId millis)) =
          if begin.millis ≤ millis ∧ millis < stop.millis + 1000 then 1 else 0 := by
  refine ⟨_, windowRanges_eq hle, ?_, ?_⟩
  · refine List.pairwise_map.2 (List.nodup_range.imp fun {i j} hij => ?_)
    exact disjoint_shardRange hij begin.millis (stop.millis + windowPad)
  · intro sourceId millis hmillis hlength'
    have hcontains : ∀ shard, (keys.shardRange shard begin.millis
        (stop.millis + windowPad)).contains (keys.rowId sourceId millis) = true ↔
          shard = shardNumber (textHash sourceId) keys.shardCount ∧
            begin.millis ≤ millis ∧ millis < stop.millis + 1000 := fun shard =>
      contains_shardRange_iff hbegin hstop hmillis hlength hlength'
    rw [List.countP_map]
    split
    · rename_i hin
      -- the shard of the source is listed, and it is listed once
      have hshard := shardNumber_lt (textHash sourceId) keys.shardCount_pos
      rw [← List.count_eq_one_of_mem List.nodup_range (List.mem_range.2 hshard), List.count]
      refine List.countP_congr fun shard _ => ?_
      simp [hcontains, hin]
    · rename_i hout
      refine List.countP_eq_zero.2 fun shard _ hmem => hout ?_
      exact ((hcontains shard).1 hmem).2

/-- A source in the last of 37 shards, `10`, whose digits begin like those of the second: a window
of two and a half seconds has one range for its key at the begin, and none for its key at the
end. -/
theorem countP_windowRanges_shards :
    ∃ ranges, ({ keyPrefix := "log_", shardCount := 37 } : KeyLayout).windowRanges
        ⟨1000, 0, by decide, by decide, by decide⟩
        ⟨1001, 500000000, by decide, by decide, by decide⟩ = .ok ranges ∧
      ranges.Pairwise RowRange.Disjoint ∧
      ranges.countP (fun range => range.contains
        (({ keyPrefix := "log_", shardCount := 37 } : KeyLayout).rowId "I" 1000000)) = 1 ∧
      ranges.countP (fun range => range.contains
        (({ keyPrefix := "log_", shardCount := 37 } : KeyLayout).rowId "I" 1002500)) = 0 := by
  obtain ⟨ranges, hranges, hdisjoint, hcount⟩ :=
    countP_windowRanges { keyPrefix := "log_", shardCount := 37 }
      ⟨1000, 0, by decide, by decide, by decide⟩
      ⟨1001, 500000000, by decide, by decide, by decide⟩
      rfl (by decide) (by decide) (by simp [decimalLength, Instant.millis, digits])
  refine ⟨ranges, hranges, hdisjoint, ?_, ?_⟩
  · rw [hcount "I" 1000000 (by decide) (by simp [decimalLength, Instant.millis, digits])]
    rfl
  · rw [hcount "I" 1002500 (by decide) (by simp [decimalLength, Instant.millis, digits])]
    rfl

end KeyLayout

end TaggedRows
