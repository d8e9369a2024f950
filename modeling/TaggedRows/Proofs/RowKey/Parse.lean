import Mathlib.Data.List.Basic
import TaggedRows.Proofs.Text.Numeral
import TaggedRows.RowKey.Layout

/-!
# Row keys taken apart

A row key is cut at the end of its prefix and then at the first two separators.  Neither the digits
of the shard nor the milliseconds hold a separator, so the cuts fall where the key was put together,
whatever the prefix and the source id hold.  A row is taken apart into a key exactly if it is a
spelling of the key (`KeyLayout.parse?_eq_some_iff`), and the text of a key is one of them
(`KeyLayout.parse?_text`).

The shard is not compared with the source id when a key is taken apart.  A layout therefore also
takes apart the keys of every other layout with its prefix (`KeyLayout.parse?_rowId`).
-/

namespace TaggedRows

open TaggedRows.Text TaggedRows.Time

/-! ## Cutting at a mark -/

theorem cutAt?_append {mark : Char} {l : List Char} (h : mark ∉ l) (r : List Char) :
    cutAt? mark (l ++ mark :: r) = some (l, r) := by
  induction l with
  | nil => simp [cutAt?]
  | cons c l ih =>
    simp only [List.mem_cons, not_or] at h
    rw [List.cons_append, cutAt?, if_neg (Ne.symm h.1), ih h.2]
    rfl

/-- What stands before the first mark is determined by the text, and so is what stands behind. -/
theorem append_mark_inj {mark : Char} {l l' r r' : List Char} (h : mark ∉ l) (h' : mark ∉ l')
    (heq : l ++ mark :: r = l' ++ mark :: r') : l = l' ∧ r = r' := by
  have hcuts := congrArg (cutAt? mark) heq
  rwa [cutAt?_append h, cutAt?_append h', Option.some.injEq, Prod.mk.injEq] at hcuts

/-- A text is cut into two exactly at the first mark. -/
theorem cutAt?_eq_some_iff {mark : Char} {cs l r : List Char} :
    cutAt? mark cs = some (l, r) ↔ cs = l ++ mark :: r ∧ mark ∉ l := by
  constructor
  · intro h
    induction cs generalizing l with
    | nil => cases h
    | cons c cs ih =>
      rw [cutAt?] at h
      split at h
      · rename_i hc
        cases h
        exact ⟨by rw [hc]; rfl, List.not_mem_nil⟩
      · rename_i hc
        obtain ⟨p, hp, heq⟩ := Option.map_eq_some_iff.1 h
        cases heq
        obtain ⟨rfl, hmark⟩ := ih hp
        exact ⟨rfl, by simp [hmark, Ne.symm hc]⟩
  · rintro ⟨rfl, h⟩
    exact cutAt?_append h r

/-! ## Well-formed keys -/

/-- The shard of the key is a text of base-36 digits, and its time is a 64-bit number. -/
structure RowKey.WellFormed (key : RowKey) : Prop where
  shard_ne_nil : key.shard.toList ≠ []
  shard_digits : ∀ c ∈ key.shard.toList, isBase36Digit c = true
  millis_isInt64 : isInt64 key.millis = true

/-- The row is the prefix and behind it the parts of the key, with the time spelled `millis`. -/
structure RowKey.SpelledAs (key : RowKey) (keyPrefix millis row : String) : Prop where
  text : row = keyPrefix ++ key.shard ++ "_" ++ millis ++ "_" ++ key.sourceId
  spells : Spells millis.toList key.millis
  wellFormed : key.WellFormed

theorem RowKey.WellFormed.mark_not_mem_shard {key : RowKey} (h : key.WellFormed) :
    '_' ∉ key.shard.toList :=
  fun hmem => absurd (h.shard_digits _ hmem) (by decide)

theorem RowKey.SpelledAs.mark_not_mem_millis {key : RowKey} {keyPrefix millis row : String}
    (h : key.SpelledAs keyPrefix millis row) : '_' ∉ millis.toList := by
  intro hmem
  rcases h.spells.mem hmem with hmark | hmark | hmark
  · exact absurd hmark (by decide)
  · exact absurd hmark (by decide)
  · exact absurd hmark (by decide)

theorem RowKey.SpelledAs.toList_eq {key : RowKey} {keyPrefix millis row : String}
    (h : key.SpelledAs keyPrefix millis row) :
    row.toList = keyPrefix.toList ++ (key.shard.toList ++
      '_' :: (millis.toList ++ '_' :: key.sourceId.toList)) := by
  simp [h.text]

/-- A row is taken apart into a key exactly if it is a spelling of the key. -/
theorem KeyLayout.parse?_eq_some_iff (keys : KeyLayout) {row : String} {key : RowKey} :
    keys.parse? row = some key ↔ ∃ millis, key.SpelledAs keys.keyPrefix millis row := by
  have hstrip : ∀ l cs r : List Char, l.isPrefixOf? cs = some r ↔ cs = l ++ r := by
    intro l cs r
    rw [List.isPrefixOf?_eq_some_iff_append_eq]
    exact eq_comm
  constructor
  · intro h
    rw [parse?] at h
    simp only [Option.bind_eq_bind, Option.bind_eq_some_iff] at h
    obtain ⟨rest, hrest, ⟨shard, rest'⟩, hshard, h⟩ := h
    simp only at h
    split at h
    · cases h
    · rename_i hok
      simp only [Option.bind_eq_some_iff] at h
      obtain ⟨⟨millis, sourceId⟩, hmillis, i, hfilter, hkey⟩ := h
      obtain ⟨hspells, hint⟩ := Option.filter_eq_some_iff.1 hfilter
      obtain ⟨rfl, -⟩ := cutAt?_eq_some_iff.1 hshard
      obtain ⟨rfl, -⟩ := cutAt?_eq_some_iff.1 hmillis
      obtain ⟨hne, hdigits⟩ := not_or.1 hok
      cases hkey
      refine ⟨String.ofList millis, ?_, ?_, ?_, ?_, hint⟩
      · rw [← String.toList_inj, (hstrip _ _ _).1 hrest]
        simp
      · rw [String.toList_ofList]
        exact intOf?_eq_some_iff.1 hspells
      · rwa [String.toList_ofList]
      · rw [String.toList_ofList]
        exact List.all_eq_true.1 (not_not.1 hdigits)
  · rintro ⟨millis, h⟩
    have hall : key.shard.toList.all isBase36Digit = true :=
      List.all_eq_true.2 h.wellFormed.shard_digits
    have hok : ¬ (key.shard.toList = [] ∨ ¬ key.shard.toList.all isBase36Digit = true) := by
      simp [h.wellFormed.shard_ne_nil, hall]
    rw [parse?, h.toList_eq]
    simp only [(hstrip _ _ _).2 rfl, cutAt?_append h.wellFormed.mark_not_mem_shard,
      cutAt?_append h.mark_not_mem_millis, intOf?_eq_some_iff.2 h.spells, Option.filter_some,
      h.wellFormed.millis_isInt64, if_neg hok, Option.bind_eq_bind, Option.bind_some, if_true,
      String.ofList_toList, Option.pure_def]

theorem RowKey.WellFormed.spelledAs {key : RowKey} (h : key.WellFormed) (keyPrefix : String) :
    key.SpelledAs keyPrefix (intText key.millis) (key.text keyPrefix) where
  text := rfl
  spells := intOf?_eq_some_iff.1 (intOf?_intText key.millis)
  wellFormed := h

/-- The text of a well-formed key is taken apart into the key's parts. -/
theorem KeyLayout.parse?_text (keys : KeyLayout) {key : RowKey} (h : key.WellFormed) :
    keys.parse? (key.text keys.keyPrefix) = some key :=
  keys.parse?_eq_some_iff.2 ⟨_, h.spelledAs keys.keyPrefix⟩

/-! ## Derived keys -/

/-- The milliseconds of an instant are a 64-bit number. -/
theorem isInt64_millis (t : Instant) : isInt64 t.millis = true := by
  have hfirst := t.first_le_secs
  have hlast := t.secs_le_last
  have hnanos := t.nanos_lt
  simp only [firstSecond, lastSecond] at hfirst hlast
  rw [isInt64, decide_eq_true_iff, Instant.millis]
  omega

theorem wellFormed_of_base36 (shard : Nat) {millis : Int} (h : isInt64 millis = true)
    (sourceId : String) : (RowKey.mk (base36 shard) millis sourceId).WellFormed where
  shard_ne_nil := by simpa [base36] using digits_ne_nil 36 shard
  shard_digits c hc := isBase36Digit_of_mem_digits (n := shard) (by simpa [base36] using hc)
  millis_isInt64 := h

theorem KeyLayout.spelledAs_rowId (keys : KeyLayout) (sourceId : String) {millis : Int}
    (h : isInt64 millis = true) :
    (RowKey.mk (base36 (shardNumber (textHash sourceId) keys.shardCount)) millis
      sourceId).SpelledAs keys.keyPrefix (intText millis) (keys.rowId sourceId millis) :=
  (wellFormed_of_base36 _ h sourceId).spelledAs keys.keyPrefix

/-- Every layout with the same prefix recovers source id and time from a derived key, whatever its
own number of shards. -/
theorem KeyLayout.parse?_rowId {writer reader : KeyLayout}
    (h : writer.keyPrefix = reader.keyPrefix) (sourceId : String) {millis : Int}
    (hmillis : isInt64 millis = true) :
    reader.parse? (writer.rowId sourceId millis) =
      some ⟨base36 (shardNumber (textHash sourceId) writer.shardCount), millis, sourceId⟩ :=
  reader.parse?_eq_some_iff.2 ⟨_, h ▸ writer.spelledAs_rowId sourceId hmillis⟩

theorem KeyLayout.parse?_rowIdAt {writer reader : KeyLayout}
    (h : writer.keyPrefix = reader.keyPrefix) (sourceId : String) (time : Instant) :
    reader.parse? (writer.rowIdAt sourceId time) =
      some ⟨base36 (shardNumber (textHash sourceId) writer.shardCount), time.millis, sourceId⟩ :=
  parse?_rowId h sourceId (isInt64_millis time)

/-- No two sources share a key at any times. -/
theorem KeyLayout.rowId_inj (keys : KeyLayout) {sourceId sourceId' : String} {millis millis' : Int}
    (hmillis : isInt64 millis = true) (hmillis' : isInt64 millis' = true)
    (h : keys.rowId sourceId millis = keys.rowId sourceId' millis') :
    sourceId = sourceId' ∧ millis = millis' := by
  have hkey : keys.parse? (keys.rowId sourceId millis) = some _ := parse?_rowId rfl sourceId hmillis
  rw [h, parse?_rowId rfl sourceId' hmillis', Option.some.injEq, RowKey.mk.injEq] at hkey
  exact ⟨hkey.2.2.symm, hkey.2.1.symm⟩

end TaggedRows
