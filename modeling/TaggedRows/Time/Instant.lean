import TaggedRows.Time.Calendar

/-!
# Instants

Points in universal time with nanoseconds, from the start of year -262143 to the end of year
262142.  A leap second is the continuation of a second: its nanoseconds run on from 10⁹ to 2 · 10⁹.

An instant may be in a leap second behind any second.  Where an instant is named, by seconds and
nanoseconds or by a text, a leap second has to end a minute.

Main statements:

* `leapEndsMinute_of_ofParts?`: an instant named by its parts is in no leap second amid a minute.
* `millis_ofMillis?`: an instant made from milliseconds has those milliseconds.
-/

namespace TaggedRows.Time

/-- Seconds from 1970 to the first instant. -/
def firstSecond : Int := -8334601228800

/-- Seconds from 1970 to the last second. -/
def lastSecond : Int := 8210266876799

example : firstSecond = Date.dayNumber ⟨-262143, 1, 1⟩ * 86400 ∧
    lastSecond = Date.dayNumber ⟨262142, 12, 31⟩ * 86400 + 86399 := by decide

/-- A point in universal time: whole seconds since 1970 and nanoseconds on top. -/
structure Instant where
  secs : Int
  nanos : Nat
  first_le_secs : firstSecond ≤ secs
  secs_le_last : secs ≤ lastSecond
  nanos_lt : nanos < 2000000000
deriving DecidableEq

namespace Instant

/-- The instant at `secs` and `nanos`, if they name one.  They name leap seconds at the end of a
minute alone. -/
def ofParts? (secs : Int) (nanos : Nat) : Option Instant :=
  if h : (firstSecond ≤ secs ∧ secs ≤ lastSecond) ∧
      nanos < 2000000000 ∧ (1000000000 ≤ nanos → secs % 60 = 59) then
    some ⟨secs, nanos, h.1.1, h.1.2, h.2.1⟩
  else none

/-- If the instant is in a leap second, this continues the last second of a minute. -/
def LeapEndsMinute (t : Instant) : Prop := 1000000000 ≤ t.nanos → t.secs % 60 = 59

instance : DecidablePred LeapEndsMinute :=
  fun t => inferInstanceAs (Decidable (1000000000 ≤ t.nanos → t.secs % 60 = 59))

/-- The start of 1970. -/
def epoch : Instant := ⟨0, 0, by decide, by decide, by decide⟩

instance : Inhabited Instant := ⟨epoch⟩

/-- Whether `a` comes before `b`. -/
def before (a b : Instant) : Bool := a.secs < b.secs || (a.secs == b.secs && a.nanos < b.nanos)

/-- Whole milliseconds since 1970, rounded toward the past; within a leap second they run on into
the next second. -/
def millis (t : Instant) : Int := t.secs * 1000 + (t.nanos / 1000000 : Nat)

/-- The instant at whole milliseconds since 1970. -/
def ofMillis? (ms : Int) : Option Instant :=
  ofParts? (ms / 1000) ((ms % 1000).toNat * 1000000)

/-- The instant without what is finer than a millisecond.  The last leap second has no next second
to run on into and stays as it is. -/
def truncate (t : Instant) : Instant := (ofMillis? t.millis).getD t

/-- An instant named by its parts is in no leap second amid a minute. -/
theorem leapEndsMinute_of_ofParts? {secs : Int} {nanos : Nat} {t : Instant}
    (h : ofParts? secs nanos = some t) : t.LeapEndsMinute := by
  unfold ofParts? at h
  split at h
  · rename_i hparts
    cases h
    exact hparts.2.2
  · cases h

/-- An instant made from milliseconds has those milliseconds. -/
theorem millis_ofMillis? {ms : Int} {t : Instant} (h : ofMillis? ms = some t) : t.millis = ms := by
  unfold ofMillis? ofParts? at h
  split at h
  · cases h
    simp only [millis]
    omega
  · cases h

/-- Milliseconds name an instant exactly when their second is one of the covered years. -/
theorem ofMillis?_isSome_iff (ms : Int) :
    (ofMillis? ms).isSome ↔ firstSecond ≤ ms / 1000 ∧ ms / 1000 ≤ lastSecond := by
  unfold ofMillis? ofParts?
  split
  · rename_i h
    simp [h.1.1, h.1.2]
  · rename_i h
    simp only [Option.isSome_none, Bool.false_eq_true, false_iff]
    exact fun hr => h ⟨hr, by omega, by omega⟩

end Instant

end TaggedRows.Time
