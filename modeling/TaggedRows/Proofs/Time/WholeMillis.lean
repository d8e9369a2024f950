import TaggedRows.Time.Instant

/-!
# Whole milliseconds

Dropping what is finer than a millisecond rounds an instant down, before 1970 as well as after
(`Instant.isFloorOf_truncate`).  In a leap second the milliseconds run on into the next second, so
the rounded instant is one of that second.

There is one leap second without a next one, at the end of the covered years, and instants in it
stay as they are (`Instant.truncate_of_inLastLeapSecond`).  Rounding twice is the same as rounding
once in any case (`Instant.truncate_truncate`).
-/

namespace TaggedRows.Time

namespace Instant

/-- Nanoseconds since 1970; in a leap second they run on into the next second. -/
def totalNanos (t : Instant) : Int := t.secs * 1000000000 + t.nanos

/-- The instant is in the leap second at the end of the covered years. -/
def InLastLeapSecond (t : Instant) : Prop := t.secs = lastSecond ∧ 1000000000 ≤ t.nanos

instance : DecidablePred InLastLeapSecond :=
  fun t => inferInstanceAs (Decidable (t.secs = lastSecond ∧ 1000000000 ≤ t.nanos))

/-- The instant is a whole number of milliseconds, outside of leap seconds, and it is the last such
instant that does not come after `t`. -/
structure IsFloorOf (a t : Instant) : Prop where
  whole : a.nanos % 1000000 = 0
  not_leap : a.nanos < 1000000000
  le : a.totalNanos ≤ t.totalNanos
  lt : t.totalNanos < a.totalNanos + 1000000

/-- The milliseconds of an instant name one, unless it is in the last leap second. -/
theorem ofMillis?_millis_eq_none_iff (t : Instant) :
    ofMillis? t.millis = none ↔ t.InLastLeapSecond := by
  have hfirst := t.first_le_secs
  have hlast := t.secs_le_last
  have hnanos := t.nanos_lt
  rw [← Option.not_isSome_iff_eq_none, ofMillis?_isSome_iff, millis, InLastLeapSecond]
  omega

/-- An instant of whole milliseconds is named by them. -/
theorem eq_of_ofMillis? {ms : Int} {t : Instant} (h : ofMillis? ms = some t) :
    t.secs = ms / 1000 ∧ t.nanos = (ms % 1000).toNat * 1000000 := by
  unfold ofMillis? ofParts? at h
  split at h
  · cases h
    exact ⟨rfl, rfl⟩
  · cases h

theorem isFloorOf_of_ofMillis? {a t : Instant} (h : ofMillis? t.millis = some a) :
    a.IsFloorOf t := by
  obtain ⟨hsecs, hnanos⟩ := eq_of_ofMillis? h
  have hmillis : t.millis = t.secs * 1000 + (t.nanos / 1000000 : Nat) := rfl
  constructor
  · omega
  · omega
  · rw [totalNanos, totalNanos]
    omega
  · rw [totalNanos, totalNanos]
    omega

variable {t : Instant}

theorem ofMillis?_millis (h : ¬ t.InLastLeapSecond) : ofMillis? t.millis = some t.truncate := by
  cases hmillis : ofMillis? t.millis with
  | none => exact absurd (t.ofMillis?_millis_eq_none_iff.1 hmillis) h
  | some a => rw [truncate, hmillis, Option.getD_some]

theorem isFloorOf_truncate (h : ¬ t.InLastLeapSecond) : t.truncate.IsFloorOf t :=
  isFloorOf_of_ofMillis? (ofMillis?_millis h)

theorem truncate_of_inLastLeapSecond (h : t.InLastLeapSecond) : t.truncate = t := by
  rw [truncate, t.ofMillis?_millis_eq_none_iff.2 h, Option.getD_none]

/-- Outside of the last leap second, what is left after rounding is named by its milliseconds. -/
theorem ofMillis?_millis_truncate (h : ¬ t.InLastLeapSecond) :
    ofMillis? t.truncate.millis = some t.truncate := by
  have hmillis := ofMillis?_millis h
  rwa [millis_ofMillis? hmillis]

theorem truncate_truncate (t : Instant) : t.truncate.truncate = t.truncate := by
  by_cases h : t.InLastLeapSecond
  · rw [truncate_of_inLastLeapSecond h, truncate_of_inLastLeapSecond h]
  · rw [truncate, ofMillis?_millis_truncate h, Option.getD_some]

end Instant

end TaggedRows.Time
