import TaggedRows.Proofs.RowKey.Parse

/-!
# The format of row keys

A row is a spelling of at most one key, and in one way, however many separators, digits and signs
the prefix and the source id hold (`RowKey.SpelledAs.unique`).  A row that is taken apart is the one
derived from its source id and time exactly if it is spelled the way keys are derived: with the
shard of the source id, and with the time in its canonical form
(`RowKey.SpelledAs.rowId_eq_iff`).
-/

namespace TaggedRows

open TaggedRows.Text

theorem KeyLayout.shardOfHash_eq (keys : KeyLayout) (hash : Int32) :
    shardOfHash hash keys.shardCount = .ok (base36 (shardNumber hash keys.shardCount)) :=
  if_neg (Nat.ne_of_gt keys.shardCount_pos)

namespace RowKey.SpelledAs

variable {key key' : RowKey} {millis millis' row : String}

/-- A row is spelled as a key in one way at most. -/
theorem unique {keyPrefix : String} (h : key.SpelledAs keyPrefix millis row)
    (h' : key'.SpelledAs keyPrefix millis' row) : key = key' ∧ millis = millis' := by
  have hlists := List.append_cancel_left (h.toList_eq.symm.trans h'.toList_eq)
  obtain ⟨hshard, hrest⟩ := append_mark_inj h.wellFormed.mark_not_mem_shard
    h'.wellFormed.mark_not_mem_shard hlists
  obtain ⟨hmillis, hsource⟩ := append_mark_inj h.mark_not_mem_millis h'.mark_not_mem_millis hrest
  obtain rfl := String.toList_injective hmillis
  have hread := intOf?_eq_some_iff.2 h.spells
  rw [intOf?_eq_some_iff.2 h'.spells, Option.some.injEq] at hread
  cases key
  cases key'
  cases String.toList_injective hshard
  cases String.toList_injective hsource
  cases hread
  exact ⟨rfl, rfl⟩

/-- A spelled row is derived from the source id and the time of its key exactly if the shard is that
of the source id and the time is spelled in its canonical form. -/
theorem rowId_eq_iff {keys : KeyLayout} (h : key.SpelledAs keys.keyPrefix millis row) :
    keys.rowId key.sourceId key.millis = row ↔
      shardOfHash (textHash key.sourceId) keys.shardCount = .ok key.shard ∧
        millis = intText key.millis := by
  have hderived := keys.spelledAs_rowId key.sourceId h.wellFormed.millis_isInt64
  rw [keys.shardOfHash_eq, Except.ok.injEq]
  constructor
  · intro hrow
    rw [hrow] at hderived
    obtain ⟨hkey, hmillis⟩ := hderived.unique h
    exact ⟨congrArg RowKey.shard hkey, hmillis.symm⟩
  · rintro ⟨hshard, rfl⟩
    rw [hderived.text, h.text, hshard]

end RowKey.SpelledAs

/-! ## Main result -/

/-- The format of row keys.  A row is taken apart into a key exactly if it is a spelling of the key,
which it is of one key at most.  A derived key is taken apart into the shard of its source id, its
time and the source id, so that no two sources or times share one; and a row that is taken apart is
the one derived exactly if its shard and the spelling of its time are. -/
theorem KeyLayout.parse?_format (keys : KeyLayout) :
    (∀ (row : String) (key : RowKey), keys.parse? row = some key ↔
      ∃ millis, key.SpelledAs keys.keyPrefix millis row) ∧
    (∀ (row : String) (key key' : RowKey) (millis millis' : String),
      key.SpelledAs keys.keyPrefix millis row → key'.SpelledAs keys.keyPrefix millis' row →
      key = key' ∧ millis = millis') ∧
    (∀ sourceId millis, isInt64 millis = true →
      rowKeyText sourceId millis keys.shardCount keys.keyPrefix = .ok (keys.rowId sourceId millis) ∧
      ∃ shard, shardOfHash (textHash sourceId) keys.shardCount = .ok shard ∧
        keys.parse? (keys.rowId sourceId millis) = some ⟨shard, millis, sourceId⟩) ∧
    (∀ sourceId sourceId' millis millis', isInt64 millis = true → isInt64 millis' = true →
      keys.rowId sourceId millis = keys.rowId sourceId' millis' →
      sourceId = sourceId' ∧ millis = millis') ∧
    (∀ (row : String) (key : RowKey) (millis : String), key.SpelledAs keys.keyPrefix millis row →
      (keys.rowId key.sourceId key.millis = row ↔
        shardOfHash (textHash key.sourceId) keys.shardCount = .ok key.shard ∧
          millis = intText key.millis)) := by
  refine ⟨?_, ?_, ?_, ?_, ?_⟩
  · intro row key
    exact keys.parse?_eq_some_iff
  · intro row key key' millis millis' h h'
    exact h.unique h'
  · intro sourceId millis h
    refine ⟨?_, _, keys.shardOfHash_eq _, parse?_rowId rfl sourceId h⟩
    rw [rowKeyText, keys.shardOfHash_eq]
    rfl
  · intro sourceId sourceId' millis millis' h h' heq
    exact keys.rowId_inj h h' heq
  · intro row key millis h
    exact h.rowId_eq_iff

/-- A row with a sign and zeros before its time is taken apart behind a prefix that holds a
separator, and it is not the row derived from its parts. -/
theorem KeyLayout.parse?_format_padded :
    let keys : KeyLayout := { keyPrefix := "1_" }
    keys.parse? "1_zz_+007__-8_" = some ⟨"zz", 7, "_-8_"⟩ ∧
      keys.rowId "_-8_" 7 ≠ "1_zz_+007__-8_" := by
  intro keys
  obtain ⟨hparse, -, -, -, hderived⟩ := keys.parse?_format
  have hspelled : (RowKey.mk "zz" 7 "_-8_").SpelledAs keys.keyPrefix "+007" "1_zz_+007__-8_" :=
    ⟨rfl, .plus ⟨by decide, List.all_eq_true.1 (by decide)⟩,
      by decide, List.all_eq_true.1 (by decide), by decide⟩
  refine ⟨(hparse _ _).2 ⟨_, hspelled⟩, fun hrow => ?_⟩
  have hmillis := ((hderived _ _ _ hspelled).1 hrow).2
  have hcanonical : intText 7 = "7" := by
    simp [intText, natText, digits, digitChar]
  rw [hcanonical] at hmillis
  exact absurd hmillis (by decide)

end TaggedRows
