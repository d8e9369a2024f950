import TaggedRows.Proofs.Tag.Registry

/-!
# The history of a registry

Two maps make up a registry, and a call that puts a tag in place changes them by different rules:
the kind of the tag is noted in any case, the tag of the kind only if it is the first.  What the
maps say together is what the **history** of the registry says, the list of the tags that were put
in place, each with its kind and in order (`Registry.Remembers`).

The step is one tag that was free (`Registry.Remembers.insert`).  Calls that fail are no part of the
history (`Registry.accepted`), so any calls follow by induction (`Registry.Remembers.registerAll`).
-/

namespace TaggedRows.Registry

variable {r : Registry} {tag : String} {kind : RecordKind} {history : List (String × RecordKind)}

/-! ## Tags -/

theorem mem_tags_iff : tag ∈ r.tags ↔ ∃ kind, r.kindOf? tag = some kind := by
  unfold tags SortedMap.keys
  rw [List.mem_map]
  constructor
  · rintro ⟨⟨other, kind⟩, hmem, rfl⟩
    exact ⟨kind, (SortedMap.mem_toList_iff _).1 hmem⟩
  · rintro ⟨kind, hkind⟩
    exact ⟨(tag, kind), (SortedMap.mem_toList_iff _).2 hkind, rfl⟩

theorem pairwise_tags (r : Registry) : r.tags.Pairwise (· < ·) := by
  unfold tags SortedMap.keys
  exact List.pairwise_map.2 (r.byTag.ascending.imp compareOfLessAndEq_eq_lt.1)

/-- A tag is refused if it is empty, or else if it is taken. -/
theorem register_eq_error_iff {e : TableError} : r.register tag kind = .error e ↔
    (tag = "" ∧ e = .setting .emptyTag) ∨
      (tag ≠ "" ∧ tag ∈ r.tags ∧ e = .duplicateTag tag) := by
  have htaken : r.byTag.contains tag = true ↔ tag ∈ r.tags := by
    rw [mem_tags_iff, SortedMap.contains, Option.isSome_iff_exists]
    rfl
  unfold register
  by_cases hempty : tag = ""
  · simp [hempty, eq_comm]
  · by_cases hmem : tag ∈ r.tags
    · simp [hempty, htaken.2 hmem, hmem, eq_comm]
    · have hfree : ¬ r.byTag.contains tag = true := fun h => hmem (htaken.1 h)
      simp [hempty, hfree, hmem]

/-! ## Histories -/

/-- The calls among others that put a tag in place. -/
def accepted (r : Registry) : List (String × RecordKind) → List (String × RecordKind)
  | [] => []
  | call :: calls =>
    match r.register call.1 call.2 with
    | .ok after => call :: after.accepted calls
    | .error _ => r.accepted calls

/-- The registry says of tags and kinds what its history says: a tag stands for the kind that it was
put in place for, and a kind is written under the first of its tags. -/
structure Remembers (r : Registry) (history : List (String × RecordKind)) : Prop where
  nodup : (history.map (·.1)).Nodup
  kindOf? : ∀ {tag kind}, r.kindOf? tag = some kind ↔ (tag, kind) ∈ history
  tagOf? : ∀ kind, r.tagOf? kind = (history.find? fun entry => entry.2 == kind).map (·.1)

theorem Remembers.mem_tags_iff (h : r.Remembers history) :
    tag ∈ r.tags ↔ tag ∈ history.map (·.1) := by
  simp [Registry.mem_tags_iff, h.kindOf?]

theorem remembers_empty : empty.Remembers [] where
  nodup := List.nodup_nil
  kindOf? := by simp
  tagOf? := by simp

/-- A tag that was free is put in place behind the others. -/
theorem Remembers.insert (h : r.Remembers history) (hfree : r.kindOf? tag = none)
    (kind : RecordKind) : (r.insert tag kind).Remembers (history ++ [(tag, kind)]) := by
  have hnew : tag ∉ history.map (·.1) := by
    rw [← h.mem_tags_iff, Registry.mem_tags_iff]
    simp [hfree]
  constructor
  · rw [List.map_append, List.nodup_append]
    refine ⟨h.nodup, by simp, fun other hother last hlast heq => hnew ?_⟩
    obtain rfl : last = tag := List.mem_singleton.1 hlast
    rwa [← heq]
  · intro other kind'
    rw [kindOf?_insert, List.mem_append, List.mem_singleton, Prod.mk.injEq, ← h.kindOf?]
    by_cases hother : other = tag
    · simp [hother, hfree, eq_comm]
    · simp [hother]
  · intro other
    rw [tagOf?_insert, h.tagOf?, List.find?_append, Option.map_or]
    by_cases hother : other = kind
    · simp [hother]
    · simp [hother, Ne.symm hother]

theorem Remembers.registerAll (h : r.Remembers history) (calls : List (String × RecordKind)) :
    (r.registerAll calls).Remembers (history ++ r.accepted calls) := by
  induction calls generalizing r history with
  | nil => simpa [accepted, Registry.registerAll] using h
  | cons call calls ih =>
    have hstep : r.registerAll (call :: calls) =
        (r.afterRegister call.1 call.2).registerAll calls := rfl
    rw [hstep, accepted]
    rcases r.afterRegister_cases call.1 call.2 with ⟨hok, hafter, -, hfree⟩ | ⟨⟨e, he⟩, hafter⟩
    · rw [hok, hafter, List.append_cons]
      exact ih (h.insert hfree call.2)
    · rw [he, hafter]
      exact ih h

/-- A kind has a tag exactly if one was put in place for it. -/
theorem Remembers.isSome_tagOf? (h : r.Remembers history) :
    (r.tagOf? kind).isSome = true ↔ ∃ tag, (tag, kind) ∈ history := by
  rw [h.tagOf?, Option.isSome_map, List.find?_isSome]
  constructor
  · rintro ⟨⟨tag, other⟩, hmem, hkind⟩
    obtain rfl : other = kind := by simpa using hkind
    exact ⟨tag, hmem⟩
  · rintro ⟨tag, hmem⟩
    exact ⟨_, hmem, by simp⟩

/-! ## Main result -/

/-- The history of the registry with every kind under its own tag. -/
def standardTags : List (String × RecordKind) :=
  [(RecordKind.entity.tag, .entity), (RecordKind.logRecord.tag, .logRecord)]

theorem remembers_standard : standard.Remembers standardTags :=
  (remembers_empty.insert rfl .entity).insert (by decide) .logRecord

/-- What calls make of a registry that has no tag, or every kind under its own tag.  A call fails
exactly if its tag is empty or taken, and then nothing changes.  The tags are, in ascending order,
the first ones and those of the calls that succeeded; each stands for the kind that it was put in
place for, and a kind is written under the first of its tags.  What a registry says about tags and
kinds it says after any later calls.  A kind has a writer exactly if a tag was put in place for it,
and its writer then is of this kind. -/
theorem registerAll_history {start : Registry} {first : List (String × RecordKind)}
    (h : (start = empty ∧ first = []) ∨ (start = standard ∧ first = standardTags))
    (calls : List (String × RecordKind)) :
    let r := start.registerAll calls
    let history := first ++ start.accepted calls
    (∀ tag kind e, r.register tag kind = .error e ↔ (tag = "" ∧ e = .setting .emptyTag) ∨
        (tag ≠ "" ∧ tag ∈ r.tags ∧ e = .duplicateTag tag)) ∧
      (∀ tag kind e, r.register tag kind = .error e → r.afterRegister tag kind = r) ∧
      r.tags.Pairwise (· < ·) ∧ (∀ tag, tag ∈ r.tags ↔ tag ∈ history.map (·.1)) ∧
      (∀ tag kind, r.kindOf? tag = some kind ↔ (tag, kind) ∈ history) ∧
      (∀ kind, r.tagOf? kind = (history.find? fun entry => entry.2 == kind).map (·.1)) ∧
      (∀ later, r.ExtendedBy (r.registerAll later)) ∧
      (∀ kind, (r.writer? kind).isSome = true ↔ ∃ tag, (tag, kind) ∈ history) ∧
      ∀ kind tag handler, r.writer? kind = some (tag, handler) →
        r.tagOf? kind = some tag ∧ r.kindOf? tag = some kind ∧ handler = .ofKind kind := by
  intro r history
  have hr : r.Remembers history := by
    rcases h with ⟨rfl, rfl⟩ | ⟨rfl, rfl⟩
    · exact remembers_empty.registerAll calls
    · exact remembers_standard.registerAll calls
  have hcoherent : r.Coherent := Reachable.coherent ⟨start, calls, h.imp And.left And.left, rfl⟩
  refine ⟨fun _ _ _ => register_eq_error_iff, ?_, r.pairwise_tags, fun _ => hr.mem_tags_iff,
    fun _ _ => hr.kindOf?, hr.tagOf?, r.extendedBy_registerAll, ?_, ?_⟩
  · intro tag kind e he
    rw [afterRegister, he]
  · intro kind
    rw [hcoherent.writer?_eq, Option.isSome_map, hr.isSome_tagOf?]
  · intro kind tag handler hwriter
    rw [hcoherent.writer?_eq, Option.map_eq_some_iff] at hwriter
    obtain ⟨_, htag, heq⟩ := hwriter
    cases heq
    exact ⟨htag, hcoherent kind tag htag, rfl⟩

/-- Two tags for log records, of which the lower one comes second, and calls that fail. -/
def aliasCalls : List (String × RecordKind) :=
  [("b", .logRecord), ("", .entity), ("b", .entity), ("a", .logRecord)]

/-- Log records are written under the tag that came first, and no later call changes that.  The call
for entities failed, so they have no writer. -/
theorem registerAll_history_aliases :
    let r := empty.registerAll aliasCalls
    r.tags = ["a", "b"] ∧ r.register "a" .entity = .error (.duplicateTag "a") ∧
      (∀ later, (r.registerAll later).tagOf? .logRecord = some "b" ∧
        (r.registerAll later).kindOf? "a" = some .logRecord) ∧
      ¬ (r.writer? .entity).isSome = true := by
  intro r
  obtain ⟨herror, -, -, -, hkind, htag, hlater, hwriter, -⟩ :=
    registerAll_history (.inl ⟨rfl, rfl⟩) aliasCalls
  have haccepted : empty.accepted aliasCalls = [("b", .logRecord), ("a", .logRecord)] := by decide
  rw [haccepted] at hkind htag hwriter
  refine ⟨by decide, (herror "a" .entity _).2 (.inr ⟨by decide, by decide, rfl⟩), ?_, ?_⟩
  · intro later
    have hstands := (hkind "a" .logRecord).2 (by simp)
    exact ⟨(hlater later).tagOf? (htag .logRecord), (hlater later).kindOf? hstands⟩
  · rw [hwriter]
    simp

end TaggedRows.Registry
