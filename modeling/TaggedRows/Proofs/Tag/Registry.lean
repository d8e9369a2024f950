import TaggedRows.Tag.Registry

/-!
# Registries that grow

A registry grows by calls that register a tag, one after the other, and a call that fails leaves it
as it was (`Registry.registerAll`).  All that a call can do is said once: it puts a tag in place
that was free before, or nothing happens (`Registry.afterRegister_cases`).

* **Nothing is taken back.**  What a registry says about a tag or a kind it says after any calls
  (`Registry.extendedBy_registerAll`).
* **Kinds are written under tags of their own.**  In every registry that calls can make
  (`Registry.Reachable`), the tag that a kind is written under stands for that very kind
  (`Registry.Reachable.coherent`).
-/

namespace TaggedRows.Registry

variable {r s t : Registry} {tag : String} {kind : RecordKind}

/-! ## Look-ups -/

@[simp] theorem kindOf?_empty (tag : String) : empty.kindOf? tag = none := rfl

@[simp] theorem tagOf?_empty (kind : RecordKind) : empty.tagOf? kind = none := rfl

theorem kindOf?_insert (r : Registry) (tag other : String) (kind : RecordKind) :
    (r.insert tag kind).kindOf? other = if other = tag then some kind else r.kindOf? other := by
  simp only [kindOf?, insert, SortedMap.get?_insert, Std.compare_eq_iff_eq]

/-- A kind that has a tag keeps it. -/
theorem tagOf?_insert (r : Registry) (tag : String) (kind other : RecordKind) :
    (r.insert tag kind).tagOf? other =
      (r.tagOf? other).or (if other = kind then some tag else none) := by
  unfold tagOf? insert
  cases hwritten : r.written.get? kind with
  | some first =>
    by_cases hother : other = kind
    · simp [hother, hwritten]
    · simp [hother]
  | none =>
    simp only [SortedMap.get?_insert, Std.compare_eq_iff_eq]
    by_cases hother : other = kind
    · simp [hother, hwritten]
    · simp [hother]

/-! ## Calls -/

/-- The registry after a call to register a tag.  A call that fails changes nothing. -/
def afterRegister (r : Registry) (tag : String) (kind : RecordKind) : Registry :=
  match r.register tag kind with
  | .ok after => after
  | .error _ => r

/-- The registry after calls one after the other, of which some may fail. -/
def registerAll (r : Registry) (calls : List (String × RecordKind)) : Registry :=
  calls.foldl (fun r call => r.afterRegister call.1 call.2) r

/-- A call puts a tag in place that was free, or fails. -/
theorem afterRegister_cases (r : Registry) (tag : String) (kind : RecordKind) :
    (r.register tag kind = .ok (r.insert tag kind) ∧
        r.afterRegister tag kind = r.insert tag kind ∧ tag ≠ "" ∧ r.kindOf? tag = none) ∨
      (∃ e, r.register tag kind = .error e) ∧ r.afterRegister tag kind = r := by
  unfold afterRegister register
  by_cases hempty : tag = ""
  · simp [hempty]
  · by_cases htaken : r.byTag.contains tag = true
    · simp [hempty, htaken]
    · have hfree : r.kindOf? tag = none := by simpa [SortedMap.contains, kindOf?] using htaken
      simp [hempty, htaken, hfree]

/-- What holds of a registry holds after any calls, if it is kept whenever a free tag is put in
place. -/
theorem registerAll_induction {p : Registry → Prop}
    (hstep : ∀ r tag kind, p r → r.kindOf? tag = none → p (r.insert tag kind)) (h : p r)
    (calls : List (String × RecordKind)) : p (r.registerAll calls) := by
  induction calls generalizing r with
  | nil => exact h
  | cons call calls ih =>
    refine ih (r := r.afterRegister call.1 call.2) ?_
    rcases r.afterRegister_cases call.1 call.2 with ⟨-, hafter, -, hfree⟩ | ⟨-, hafter⟩
    · rw [hafter]
      exact hstep r call.1 call.2 h hfree
    · rwa [hafter]

/-! ## Extensions -/

/-- What `r` says about tags and kinds, `s` says too. -/
structure ExtendedBy (r s : Registry) : Prop where
  kindOf? : ∀ {tag kind}, r.kindOf? tag = some kind → s.kindOf? tag = some kind
  tagOf? : ∀ {kind tag}, r.tagOf? kind = some tag → s.tagOf? kind = some tag

theorem ExtendedBy.refl (r : Registry) : r.ExtendedBy r := ⟨id, id⟩

theorem ExtendedBy.trans (h : r.ExtendedBy s) (h' : s.ExtendedBy t) : r.ExtendedBy t :=
  ⟨h'.kindOf? ∘ h.kindOf?, h'.tagOf? ∘ h.tagOf?⟩

theorem extendedBy_insert (hfree : r.kindOf? tag = none) (kind : RecordKind) :
    r.ExtendedBy (r.insert tag kind) where
  kindOf? := by
    intro other kind' hother
    rw [kindOf?_insert, if_neg, hother]
    rintro rfl
    simp [hfree] at hother
  tagOf? := by
    intro other first hfirst
    rw [tagOf?_insert, hfirst, Option.some_or]

/-- Calls take nothing back, whether they fail or not. -/
theorem extendedBy_registerAll (r : Registry) (calls : List (String × RecordKind)) :
    r.ExtendedBy (r.registerAll calls) :=
  registerAll_induction (fun _ _ kind h hfree => h.trans (extendedBy_insert hfree kind)) (.refl r)
    calls

/-! ## Reachable registries -/

/-- Every kind is written under a tag that stands for it. -/
def Coherent (r : Registry) : Prop :=
  ∀ kind tag, r.tagOf? kind = some tag → r.kindOf? tag = some kind

/-- What writes a kind is then the handler of that kind. -/
theorem Coherent.writer?_eq (h : r.Coherent) (kind : RecordKind) :
    r.writer? kind = (r.tagOf? kind).map fun tag => (tag, .ofKind kind) := by
  unfold writer?
  cases htag : r.tagOf? kind with
  | none => rfl
  | some tag => simp [h kind tag htag]

theorem coherent_empty : empty.Coherent := by
  intro kind tag h
  simp at h

theorem Coherent.insert (h : r.Coherent) (hfree : r.kindOf? tag = none) (kind : RecordKind) :
    (r.insert tag kind).Coherent := by
  intro other first hfirst
  rw [tagOf?_insert, Option.or_eq_some_iff] at hfirst
  rcases hfirst with hold | ⟨-, hnew⟩
  · exact (extendedBy_insert hfree kind).kindOf? (h other first hold)
  · by_cases hother : other = kind
    · simp only [hother, if_true, Option.some.injEq] at hnew
      rw [kindOf?_insert, if_pos hnew.symm, hother]
    · simp [hother] at hnew

/-- The registry is made by calls, some of which may fail, from none or from every kind under its
own tag. -/
def Reachable (r : Registry) : Prop :=
  ∃ start calls, (start = empty ∨ start = standard) ∧ start.registerAll calls = r

/-- The tags that kinds have from the start are registered like any other. -/
theorem standard_eq_registerAll : standard = empty.registerAll
    [(RecordKind.entity.tag, .entity), (RecordKind.logRecord.tag, .logRecord)] := by
  decide

/-- In a registry that calls can make, every kind is written under a tag that stands for it. -/
theorem Reachable.coherent (h : r.Reachable) : r.Coherent := by
  have hcalls : ∀ {start : Registry}, start.Coherent →
      ∀ calls, (start.registerAll calls).Coherent :=
    registerAll_induction fun _ _ kind h hfree => h.insert hfree kind
  obtain ⟨start, calls, rfl | rfl, rfl⟩ := h
  · exact hcalls coherent_empty calls
  · rw [standard_eq_registerAll]
    exact hcalls (hcalls coherent_empty _) calls

end TaggedRows.Registry
