import TaggedRows.Proofs.RowKey.Format
import TaggedRows.Proofs.RowKey.Window

/-!
# Row keys in the order of time

Two keys of one shard begin with the same stem, so the text of the time behind it is compared first,
and the source id behind a separator comes last.  What this makes of the order of times depends on
the sign.

* **From 1970 on** times with as many digits sort like numbers, and keys of one time sort by their
  source ids (`KeyLayout.rowId_lt_rowId_iff`).  A scan of a shard gives its rows in time order.
* **Before 1970** the sign comes first in both texts and the digits behind it are those of the
  distance from 1970, which is shorter for the later time.  The order is reversed
  (`intText_append_lt_append_iff_of_neg`).  A time window puts the text of its begin first all the
  same, so each of its ranges ends before it starts: a window before 1970 holds no row at all
  (`KeyLayout.windowRanges_before_1970`).
-/

namespace TaggedRows

open TaggedRows.Text TaggedRows.Time

/-! ## From 1970 on -/

namespace KeyLayout

theorem shardNumber_eq_of_shardOfHash {keys : KeyLayout} {hash hash' : Int32}
    (h : shardOfHash hash keys.shardCount = shardOfHash hash' keys.shardCount) :
    shardNumber hash keys.shardCount = shardNumber hash' keys.shardCount := by
  rw [keys.shardOfHash_eq, keys.shardOfHash_eq] at h
  exact base36_inj.1 (Except.ok.inj h)

/-- Keys of one shard, at times from 1970 on that have equally many digits, are in the order of
their times, and of their source ids if the times are equal. -/
theorem rowId_lt_rowId_iff (keys : KeyLayout) {source source' : String} {time time' : Int}
    (hshard : shardOfHash (textHash source) keys.shardCount =
      shardOfHash (textHash source') keys.shardCount)
    (htime : 0 ≤ time) (htime' : 0 ≤ time') (hlength : decimalLength time = decimalLength time') :
    keys.rowId source time < keys.rowId source' time' ↔
      time < time' ∨ (time = time' ∧ source < source') := by
  rw [rowId_eq_shardStem_append, rowId_eq_shardStem_append, shardNumber_eq_of_shardOfHash hshard,
    RowRange.append_lt_append_left_iff, intText_append_lt_append_iff htime htime' hlength,
    RowRange.append_lt_append_left_iff]

/-- Of two sources in one shard, one begins with the other.  It comes first if its time is earlier,
and last if the times are equal. -/
theorem rowId_lt_rowId_iff_beginning :
    ({} : KeyLayout).rowId "aN" 1000 < ({} : KeyLayout).rowId "a" 1001 ∧
      ¬ ({} : KeyLayout).rowId "aN" 1000 < ({} : KeyLayout).rowId "a" 1000 := by
  have hshard : shardOfHash (textHash "aN") ({} : KeyLayout).shardCount =
      shardOfHash (textHash "a") ({} : KeyLayout).shardCount := by
    rw [shardOfHash_eq, shardOfHash_eq]
    exact congrArg (fun n => Except.ok (base36 n)) (by decide)
  constructor
  · rw [rowId_lt_rowId_iff _ hshard (by decide) (by decide) (by simp [decimalLength, digits])]
    decide
  · rw [rowId_lt_rowId_iff _ hshard (by decide) (by decide) rfl]
    decide

end KeyLayout

/-! ## Before 1970 -/

theorem toList_intText_of_neg {i : Int} (h : i < 0) :
    (intText i).toList = '-' :: digits 10 i.natAbs := by
  simp [intText, if_pos h, natText]

/-- Times before 1970 of the same length are in the reverse of their order, and what stands behind
them counts only if they are equal. -/
theorem intText_append_lt_append_iff_of_neg {i j : Int} (hi : i < 0) (hj : j < 0)
    (h : decimalLength i = decimalLength j) (a b : String) :
    intText i ++ a < intText j ++ b ↔ j < i ∨ (i = j ∧ a < b) := by
  have hsign := append_lt_append_left_iff ['-'] (digits 10 i.natAbs ++ a.toList)
    (digits 10 j.natAbs ++ b.toList)
  rw [String.lt_iff, String.toList_append, String.toList_append, toList_intText_of_neg hi,
    toList_intText_of_neg hj, List.cons_append, List.cons_append]
  rw [List.singleton_append, List.singleton_append] at hsign
  have hlt : i.natAbs < j.natAbs ↔ j < i := by omega
  have heq : i.natAbs = j.natAbs ↔ i = j := by omega
  rw [hsign, digits_append_lt_append_iff (by omega) (by omega) h, hlt, heq, String.lt_iff]

/-- Nothing lies between two texts of which the second is not above the first. -/
theorem RowRange.contains_span_of_le {start stop : String} (h : stop ≤ start) (row : String) :
    (span start stop).contains row = false := by
  rw [Bool.eq_false_iff]
  intro hcontains
  have hbounds : start ≤ row ∧ row < stop := by
    simpa [contains, span, afterStart, beforeEnd] using hcontains
  exact String.not_lt.2 (String.le_trans h hbounds.1) hbounds.2

/-- The milliseconds of two instants that are in order may be not, within a leap second, but then
they differ by less than a second. -/
theorem millis_lt_of_before_eq_false {begin stop : Instant} (h : stop.before begin = false) :
    begin.millis < stop.millis + 1000 := by
  have hbegin := begin.nanos_lt
  have horder : begin.secs < stop.secs ∨ (begin.secs = stop.secs ∧ begin.nanos ≤ stop.nanos) := by
    simp only [Instant.before, Bool.or_eq_false_iff, Bool.and_eq_false_iff, decide_eq_false_iff_not,
      beq_eq_false_iff_ne] at h
    omega
  simp only [Instant.millis]
  omega

namespace KeyLayout

/-- The range of a shard between two times before 1970 holds no row, since its end comes first. -/
theorem contains_shardRange_of_neg (keys : KeyLayout) (shard : Nat) {begin stop : Int}
    (hstop : stop < 0) (hlt : begin < stop) (hlength : decimalLength begin = decimalLength stop)
    (row : String) : (keys.shardRange shard begin stop).contains row = false := by
  have hreverse : intText stop < intText begin := by
    have happend := intText_append_lt_append_iff_of_neg hstop (by omega : begin < 0) hlength.symm "" ""
    rw [String.append_empty, String.append_empty] at happend
    exact happend.2 (.inl hlt)
  have hends := (RowRange.append_lt_append_left_iff (keys.shardStem shard) _ _).2 hreverse
  exact RowRange.contains_span_of_le (String.not_lt.1 (String.lt_asymm hends)) row

/-- A window before 1970 whose ends have equally many digits spans at least a millisecond, but its
ranges hold no row. -/
theorem windowRanges_before_1970 (keys : KeyLayout) {begin stop : Instant}
    (hle : stop.before begin = false) (hstop : stop.millis + 1000 < 0)
    (hlength : decimalLength begin.millis = decimalLength (stop.millis + 1000)) :
    begin.millis < stop.millis + 1000 ∧
      ∃ ranges, keys.windowRanges begin stop = .ok ranges ∧ ranges.length = keys.shardCount ∧
        ∀ range ∈ ranges, ∀ row, range.contains row = false := by
  have hlt := millis_lt_of_before_eq_false hle
  refine ⟨hlt, _, windowRanges_eq hle, by simp, ?_⟩
  intro range hrange row
  obtain ⟨shard, -, rfl⟩ := List.mem_map.1 hrange
  exact keys.contains_shardRange_of_neg shard hstop hlt hlength row

/-- A minute of the year 1900, in 37 shards. -/
theorem windowRanges_before_1970_minute :
    ∃ ranges, ({ keyPrefix := "log_", shardCount := 37 } : KeyLayout).windowRanges
        ⟨-2200000060, 0, by decide, by decide, by decide⟩
        ⟨-2200000001, 999999999, by decide, by decide, by decide⟩ = .ok ranges ∧
      ranges.length = 37 ∧ ∀ range ∈ ranges, range.contains
        (({ keyPrefix := "log_", shardCount := 37 } : KeyLayout).rowId "a" (-2200000030000)) =
          false := by
  let begin : Instant := ⟨-2200000060, 0, by decide, by decide, by decide⟩
  let stop : Instant := ⟨-2200000001, 999999999, by decide, by decide, by decide⟩
  have hle : stop.before begin = false := rfl
  have hdigits : decimalLength begin.millis = decimalLength (stop.millis + 1000) := by
    simp [begin, stop, decimalLength, Instant.millis, digits]
  obtain ⟨-, ranges, hranges, hlength, hnone⟩ :=
    windowRanges_before_1970 { keyPrefix := "log_", shardCount := 37 } hle (by decide) hdigits
  exact ⟨ranges, hranges, hlength, fun range hrange => hnone range hrange _⟩

/-- A window of two seconds in December 1969 does not cover the key of a source in its middle. -/
theorem windowRanges_misses_key :
    let keys : KeyLayout := { shardCount := 1 }
    let begin : Instant := ⟨-5, 0, by decide, by decide, by decide⟩
    let stop : Instant := ⟨-4, 0, by decide, by decide, by decide⟩
    (begin.millis < 0 ∧ stop.millis + 1000 < 0 ∧
        decimalLength begin.millis = decimalLength (stop.millis + 1000)) ∧
      begin.millis ≤ -4000 ∧ -4000 < stop.millis + 1000 ∧
      keys.windowRanges begin stop = .ok [.span "0_-5000" "0_-3000"] ∧
      keys.rowId "s" (-4000) = "0_-4000_s" ∧
      (RowRange.span "0_-5000" "0_-3000").contains "0_-4000_s" = false := by
  intro keys begin stop
  have hmillis : begin.millis = -5000 ∧ stop.millis + 1000 = -3000 := by decide
  have hranges : (List.range keys.shardCount).map (fun shard =>
      keys.shardRange shard begin.millis (stop.millis + windowPad)) =
        [.span "0_-5000" "0_-3000"] := by decide +kernel
  rw [hmillis.1, hmillis.2, windowRanges_eq rfl, hranges]
  exact ⟨⟨by decide, by decide, by simp [decimalLength, digits]⟩, by decide, by decide, rfl,
    by decide +kernel, by decide⟩

end KeyLayout

end TaggedRows
