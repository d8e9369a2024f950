import TaggedRows.Time.DateText
import TaggedRows.Proofs.Text.Padding
import TaggedRows.Proofs.Time.Calendar

/-!
# Date text read back

An instant is read back from its text as data (`Instant.ofText?_text`), whatever its fraction of a
second and its year are, and in the leap second at the end of a minute as well.  A leap second amid
a minute is written like the second behind it, and no text is read as an instant in one
(`Instant.leapEndsMinute_of_ofText?`).

The reader is more lenient than the writer: it skips white space and takes short fields.  On what is
written neither happens, since no written part begins with white space (`trimStart_of_head?`) and
each has either its full width or no digit behind it (`readDigits_append`).
-/

namespace TaggedRows.Time

open TaggedRows.Text

/-! ## Parts of a date -/

theorem trimStart_of_head? {cs : List Char} (h : ∀ c ∈ cs.head?, isBlankChar c = false) :
    trimStart cs = cs := by
  cases cs with
  | nil => rfl
  | cons c cs => rw [trimStart, List.dropWhile_cons_of_neg (by simp [h c rfl])]

theorem isBlankChar_of_isDigit {c : Char} (h : c.isDigit = true) : isBlankChar c = false := by
  have hbound := h
  simp only [Char.isDigit, ge_iff_le, Bool.and_eq_true, decide_eq_true_eq,
    UInt32.le_iff_toNat_le] at hbound
  exact forall_char_lt (P := fun c => c.isDigit = true → isBlankChar c = false) (by decide)
    (Nat.lt_succ_of_le hbound.2) h

/-- Digits are read up to their end if they are as many as fit, or if no others follow. -/
theorem readDigits_append {width : Nat} {ds rest : List Char} (hne : ds ≠ [])
    (hds : ∀ c ∈ ds, c.isDigit = true) (hlength : ds.length ≤ width)
    (hend : ds.length = width ∨ ∀ c ∈ rest.head?, c.isDigit = false) :
    readDigits width (ds ++ rest) = some (value 10 ds, rest) := by
  have htake : ((ds ++ rest).take width).takeWhile Char.isDigit = ds := by
    rw [List.take_append, List.take_of_length_le hlength]
    apply takeWhile_append_stop hds
    intro c hc
    rw [List.head?_take] at hc
    rcases hend with hfull | hrest
    · simp [hfull] at hc
    · split at hc
      · cases hc
      · exact hrest c hc
  rw [readDigits]
  simp only [htake, if_neg hne, List.drop_left]

theorem head?_paddedText_append {width n : Nat} {rest : List Char} {c : Char}
    (h : c ∈ ((paddedText width n).toList ++ rest).head?) : c.isDigit = true := by
  obtain ⟨d, ds, hds⟩ := List.exists_cons_of_ne_nil (paddedText_ne_nil width n)
  rw [hds] at h
  cases h
  exact isDigit_of_mem_paddedText (w := width) (n := n) (by simp [hds])

theorem trimStart_paddedText (width n : Nat) (rest : List Char) :
    trimStart ((paddedText width n).toList ++ rest) = (paddedText width n).toList ++ rest :=
  trimStart_of_head? fun _ hc => isBlankChar_of_isDigit (head?_paddedText_append hc)

theorem readDigits_paddedText {width w n : Nat} {rest : List Char}
    (hlength : (paddedText w n).toList.length ≤ width)
    (hend : (paddedText w n).toList.length = width ∨ ∀ c ∈ rest.head?, c.isDigit = false) :
    readDigits width ((paddedText w n).toList ++ rest) = some (n, rest) := by
  rw [readDigits_append (paddedText_ne_nil w n) (fun _ hc => isDigit_of_mem_paddedText hc) hlength
    hend, value_paddedText]

theorem readField_append {n : Nat} (h : n < 100) (rest : List Char) :
    readField ((paddedText 2 n).toList ++ rest) = some (n, rest) := by
  have hlength : (paddedText 2 n).toList.length = 2 := length_paddedText h
  rw [readField, trimStart_paddedText, readDigits_paddedText (by omega) (.inl hlength)]

theorem readMark_cons {mark : Char} (h : isBlankChar mark = false) (rest : List Char) :
    readMark mark (mark :: rest) = some rest := by
  rw [readMark, trimStart_of_head? (by rintro c ⟨⟩; exact h)]
  exact if_pos rfl

theorem readYear_append (year : Int) {rest : List Char}
    (hrest : ∀ c ∈ rest.head?, c.isDigit = false) :
    readYear ((yearText year).toList ++ rest) = some (year, rest) := by
  have hsigned : ∀ n, readDigits ((paddedText 4 n).toList ++ rest).length
      ((paddedText 4 n).toList ++ rest) = some (n, rest) := fun n =>
    readDigits_paddedText (by simp) (.inr hrest)
  rw [yearText]
  split
  · rename_i hshort
    have hlength : (paddedText 4 year.toNat).toList.length = 4 :=
      length_paddedText (show year.toNat < 10000 by omega)
    rw [readYear, trimStart_paddedText]
    split
    · rename_i heq
      exact absurd (head?_paddedText_append (by rw [heq]; rfl)) (by decide)
    · rename_i heq
      exact absurd (head?_paddedText_append (by rw [heq]; rfl)) (by decide)
    · rw [readDigits_paddedText (by omega) (.inl hlength)]
      simp
      omega
  · have hsign : ∀ (sign : String) (c : Char), sign.toList = [c] → isBlankChar c = false →
        trimStart ((sign ++ paddedText 4 year.natAbs).toList ++ rest) =
          c :: ((paddedText 4 year.natAbs).toList ++ rest) := by
      intro sign c hsign hc
      rw [String.toList_append, hsign]
      exact trimStart_of_head? (by rintro d ⟨⟩; exact hc)
    by_cases hneg : year < 0
    · rw [if_pos hneg, readYear, hsign "-" '-' rfl rfl]
      show (readDigits _ _).map _ = _
      have hyear : -(year.natAbs : Int) = year := by omega
      rw [hsigned, Option.map_some]
      exact congrArg (fun y => some (y, rest)) hyear
    · rw [if_neg hneg, readYear, hsign "+" '+' rfl rfl]
      show (readDigits _ _).map _ = _
      have hyear : (year.natAbs : Int) = year := by omega
      rw [hsigned, Option.map_some]
      exact congrArg (fun y => some (y, rest)) hyear

/-- Digits behind the point are counted in nanoseconds. -/
theorem readFraction_point {w n : Nat} (hw : w + 1 ≤ 9) (hn : n < Nat.pow 10 (w + 1)) {rest : List Char}
    (hrest : ∀ c ∈ rest.head?, c.isDigit = false) :
    readFraction ('.' :: ((paddedText (w + 1) n).toList ++ rest)) =
      some (n * Nat.pow 10 (9 - (w + 1)), rest) := by
  have hlength := length_paddedText hn
  have hdrop : ([] ++ rest).dropWhile Char.isDigit = rest := dropWhile_append_stop (by simp) hrest
  rw [List.nil_append] at hdrop
  rw [readFraction, readDigits_paddedText (by omega) (.inr hrest)]
  simp only [Option.bind_eq_bind, Option.bind_some, List.length_append, hlength, hdrop,
    Nat.add_sub_cancel]
  rfl

theorem readFraction_append {nanos : Nat} (h : nanos < 1000000000) {rest : List Char}
    (hrest : ∀ c ∈ rest.head?, c.isDigit = false ∧ c ≠ '.') :
    readFraction ((fractionText nanos).toList ++ rest) = some (nanos, rest) := by
  have hstop : ∀ c ∈ rest.head?, c.isDigit = false := fun c hc => (hrest c hc).1
  have hpoint : ∀ s : String, (("." ++ s).toList ++ rest) = '.' :: (s.toList ++ rest) := by simp
  rw [fractionText]
  split
  · rename_i hzero
    rw [hzero, String.toList_empty, List.nil_append]
    cases rest with
    | nil => rfl
    | cons c rest =>
      have hc : c ≠ '.' := (hrest c rfl).2
      unfold readFraction
      split
      · rename_i heq
        cases heq
        exact absurd rfl hc
      · rfl
  · split
    · have hdigits : nanos / 1000000 < 1000 := by omega
      rw [hpoint, readFraction_point (by omega) hdigits hstop]
      simp
      omega
    · split
      · have hdigits : nanos / 1000 < 1000000 := by omega
        rw [hpoint, readFraction_point (by omega) hdigits hstop]
        simp
        omega
      · rw [hpoint, readFraction_point (by omega) h hstop]
        simp

/-! ## Main result -/

namespace Instant

/-- The characters of a date, a time of day and a fraction of a second. -/
def dateChars (date : Date) (hour minute second nanos : Nat) : List Char :=
  (yearText date.year).toList ++ '-' :: ((paddedText 2 date.month).toList ++
    '-' :: ((paddedText 2 date.day).toList ++ 'T' :: ((paddedText 2 hour).toList ++
      ':' :: ((paddedText 2 minute).toList ++ ':' :: ((paddedText 2 second).toList ++
        ((fractionText nanos).toList ++ ['Z']))))))

theorem toList_text (t : Instant) : t.text.toList =
    dateChars (Date.ofDayNumber (t.secs / 86400)) ((t.secs % 86400).toNat / 3600)
      ((t.secs % 86400).toNat / 60 % 60)
      ((t.secs % 86400).toNat % 60 + t.nanos / 1000000000) (t.nanos % 1000000000) := by
  simp [text, clockText, dateChars]

/-- What is written for a date, a time of day and a fraction of a second is read as such. -/
theorem ofText?_of_toList {s : String} {date : Date} {hour minute second nanos : Nat}
    (hs : s.toList = dateChars date hour minute second nanos) (hdate : date.isValid = true)
    (hyear : -262143 ≤ date.year ∧ date.year ≤ 262142) (hhour : hour ≤ 23) (hminute : minute ≤ 59)
    (hsecond : second ≤ 60) (hnanos : nanos < 1000000000) :
    ofText? s = ofParts?
      (date.dayNumber * 86400 + (hour * 3600 + minute * 60 + min second 59 : Nat))
      (if second = 60 then 1000000000 + nanos else nanos) := by
  have hmonth : date.month < 100 ∧ date.day < 100 := by
    have hlength : monthLength date.year date.month ≤ 31 := by
      unfold monthLength
      split <;> split <;> omega
    simp only [Date.isValid, Bool.and_eq_true, decide_eq_true_eq] at hdate
    omega
  have hfraction : readFraction ((fractionText nanos).toList ++ ['Z']) = some (nanos, ['Z']) :=
    readFraction_append hnanos (by rintro c ⟨⟩; exact ⟨rfl, by decide⟩)
  have hzone : readZone ['Z'] = some (0, []) := rfl
  have hdash : isBlankChar '-' = false := rfl
  have hcolon : isBlankChar ':' = false := rfl
  rw [ofText?, hs, dateChars, readYear_append date.year (by rintro c ⟨⟩; rfl)]
  dsimp only [Option.bind_eq_bind]
  -- one part after the other, from the left
  rw [Option.bind_some, readMark_cons hdash, Option.bind_some, readField_append hmonth.1,
    Option.bind_some, readMark_cons hdash, Option.bind_some, readField_append hmonth.2,
    Option.bind_some]
  dsimp only
  rw [if_pos (.inl rfl), Option.bind_some, readField_append (by omega), Option.bind_some,
    readMark_cons hcolon, Option.bind_some, readField_append (by omega), Option.bind_some,
    readMark_cons hcolon, Option.bind_some, readField_append (by omega), Option.bind_some,
    hfraction, Option.bind_some, hzone, Option.bind_some]
  rw [if_pos ⟨rfl, hdate, hyear.1, hyear.2, hhour, hminute, hsecond, by decide⟩, Int.sub_zero]

/-- An instant is read back from its text, unless it is in a leap second amid a minute. -/
theorem ofText?_text {t : Instant} (hleap : t.LeapEndsMinute) : ofText? t.text = some t := by
  obtain ⟨hfirst, hlast⟩ := And.intro t.first_le_secs t.secs_le_last
  have hnanos := t.nanos_lt
  rw [LeapEndsMinute] at hleap
  have hread := ofText?_of_toList t.toList_text (Date.isValid_ofDayNumber _)
    (year_ofDayNumber hfirst hlast) (by omega) (by omega) (by omega)
    (Nat.mod_lt _ (by omega))
  -- a leap second is written as second 60, and only behind the last second of a minute
  have hsecs : t.secs / 86400 * 86400 + ((t.secs % 86400).toNat / 3600 * 3600 +
      (t.secs % 86400).toNat / 60 % 60 * 60 +
        min ((t.secs % 86400).toNat % 60 + t.nanos / 1000000000) 59 : Nat) = t.secs := by
    omega
  have hnanos' : (if (t.secs % 86400).toNat % 60 + t.nanos / 1000000000 = 60
      then 1000000000 + t.nanos % 1000000000 else t.nanos % 1000000000) = t.nanos := by
    split <;> omega
  rw [hread, Date.dayNumber_ofDayNumber, hsecs, hnanos', ofParts?,
    dif_pos ⟨⟨hfirst, hlast⟩, hnanos, hleap⟩]

/-- What is read from a text is in no leap second amid a minute. -/
theorem leapEndsMinute_of_ofText? {s : String} {t : Instant} (h : ofText? s = some t) :
    t.LeapEndsMinute := by
  rw [ofText?] at h
  dsimp only [Option.bind_eq_bind] at h
  -- year, month and day, with the marks between them
  iterate 5 obtain ⟨_, -, h⟩ := Option.bind_eq_some_iff.1 h
  split at h
  · rename_i c _ _
    by_cases hmark : c = 'T' ∨ c = 't' ∨ c = ' '
    · rw [if_pos hmark, Option.bind_some] at h
      -- the time of day with its marks, the fraction and the zone
      iterate 7 obtain ⟨_, -, h⟩ := Option.bind_eq_some_iff.1 h
      split at h
      · exact leapEndsMinute_of_ofParts? h
      · cases h
    · rw [if_neg hmark] at h
      cases h
  · cases h

end Instant

end TaggedRows.Time
