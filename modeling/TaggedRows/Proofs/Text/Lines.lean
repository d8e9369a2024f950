import TaggedRows.Text.Lines
import TaggedRows.Proofs.Text.Utf8

/-!
# Written lines read back

Text that is written line by line is cut into the same lines again (`lines_unlines`).  A line may
hold anything but a line feed; a carriage return at its very end is taken for a part of the line's
end (`dropReturn`).

Bytes can be divided where one of their lines begins: what is before the place and what is behind it
have their lines as if by themselves (`exists_lines_append`).
-/

namespace TaggedRows.Text

/-! ## Cutting off a line -/

/-- A line without the carriage return at its end. -/
def dropReturn : List UInt8 → List UInt8
  | [] => []
  | [13] => []
  | b :: line => b :: dropReturn line

theorem dropReturn_cons {b : UInt8} {line : List UInt8} (h : b = 13 → line ≠ []) :
    dropReturn (b :: line) = b :: dropReturn line := dropReturn.eq_3 b line h

/-- Only the end of a line counts. -/
theorem dropReturn_append (before : List UInt8) {line : List UInt8} (h : line ≠ []) :
    dropReturn (before ++ line) = before ++ dropReturn line := by
  induction before with
  | nil => rfl
  | cons b before ih =>
    rw [List.cons_append, dropReturn_cons fun _ => List.append_ne_nil_of_right_ne_nil _ h, ih]
    rfl

theorem dropReturn_of_not_mem {line : List UInt8} (h : 13 ∉ line) : dropReturn line = line := by
  induction line with
  | nil => rfl
  | cons b line ih =>
    rw [List.mem_cons, not_or] at h
    rw [dropReturn_cons fun hb => absurd hb.symm h.1, ih h.2]

theorem lines_append {line : List UInt8} (h : 10 ∉ line) (rest : List UInt8) :
    lines (line ++ 10 :: rest) = dropReturn line :: lines rest := by
  induction line with
  | nil => rfl
  | cons b line ih =>
    rw [List.mem_cons, not_or] at h
    by_cases hreturn : b = 13 ∧ line = []
    · obtain ⟨rfl, rfl⟩ := hreturn
      rfl
    · have hnext : ∀ bytes, b = 13 → line ++ 10 :: rest = 10 :: bytes → False := by
        intro bytes hb heq
        cases line with
        | nil => exact hreturn ⟨hb, rfl⟩
        | cons c line =>
          cases heq
          exact h.2 (by simp)
      rw [List.cons_append, lines.eq_4 b _ hnext fun hb => h.1 hb.symm, ih h.2,
        dropReturn_cons fun hb hnil => hreturn ⟨hb, hnil⟩]
      rfl

/-- First lines of bytes are the lines of their first part. -/
theorem exists_lines_append {bytes : List UInt8} {before after : List (List UInt8)}
    (h : lines bytes = before ++ after) :
    ∃ head tail, bytes = head ++ tail ∧ lines head = before ∧ lines tail = after := by
  fun_induction lines bytes generalizing before with
  | case1 =>
    obtain ⟨rfl, rfl⟩ := List.append_eq_nil_iff.1 h.symm
    exact ⟨[], [], rfl, rfl, rfl⟩
  | case2 bytes ih =>
    cases before with
    | nil => exact ⟨[], 13 :: 10 :: bytes, rfl, rfl, h⟩
    | cons line before =>
      obtain ⟨rfl, hrest⟩ := List.cons.inj h
      obtain ⟨head, tail, rfl, rfl, rfl⟩ := ih hrest
      exact ⟨13 :: 10 :: head, tail, rfl, rfl, rfl⟩
  | case3 bytes ih =>
    cases before with
    | nil => exact ⟨[], 10 :: bytes, rfl, rfl, h⟩
    | cons line before =>
      obtain ⟨rfl, hrest⟩ := List.cons.inj h
      obtain ⟨head, tail, rfl, rfl, rfl⟩ := ih hrest
      exact ⟨10 :: head, tail, rfl, rfl, rfl⟩
  | case4 b bytes hreturn hfeed ih =>
    have hline : ∀ head, head <+: bytes → lines (b :: head) = pushByte b (lines head) := by
      rintro head ⟨tail, rfl⟩
      refine lines.eq_4 b head ?_ hfeed
      rintro rest hb rfl
      exact hreturn _ hb rfl
    cases before with
    | nil => exact ⟨[], b :: bytes, rfl, rfl, (hline bytes (List.prefix_refl _)).trans h⟩
    | cons line before =>
      cases hlines : lines bytes with
      | nil =>
        rw [hlines] at h
        obtain ⟨rfl, hrest⟩ := List.cons.inj h
        obtain ⟨rfl, rfl⟩ := List.append_eq_nil_iff.1 hrest.symm
        refine ⟨b :: bytes, [], (List.append_nil _).symm, ?_, rfl⟩
        rw [hline bytes (List.prefix_refl _), hlines]
        rfl
      | cons first rest =>
        rw [hlines] at h
        obtain ⟨rfl, hrest⟩ := List.cons.inj h
        have hsplit : lines bytes = (first :: before) ++ after := by
          rw [hlines, hrest]
          rfl
        obtain ⟨head, tail, hbytes, hhead, htail⟩ := ih hsplit
        refine ⟨b :: head, tail, congrArg _ hbytes, ?_, htail⟩
        rw [hline head ⟨tail, hbytes.symm⟩, hhead]
        rfl

/-! ## Written lines -/

/-- Lines of text as bytes, each with a line feed behind it. -/
def unlines (ls : List String) : List UInt8 := ls.flatMap fun l => Utf8.encode l ++ [10]

/-- A byte below 128 is a character by itself. -/
theorem Utf8.eq_ofNat_of_mem_encodeChar {c : Char} {b : UInt8} (h : b ∈ encodeChar c)
    (hb : b.toNat < 0x80) : c = Char.ofNat b.toNat := by
  have hlead : ∀ n, n < 256 → 0x80 ≤ n → b ≠ UInt8.ofNat n := by
    rintro n hn hle rfl
    rw [toNat_byte hn] at hb
    omega
  have hc := toNat_valid c
  rw [encodeChar] at h
  split at h
  · rw [List.mem_singleton.1 h, toNat_byte (by omega), Char.ofNat_toNat]
  · exfalso
    split at h
    · simp only [List.mem_cons, List.not_mem_nil, or_false] at h
      rcases h with h | h <;> exact hlead _ (by omega) (by omega) h
    · split at h
      · simp only [List.mem_cons, List.not_mem_nil, or_false] at h
        rcases h with h | h | h <;> exact hlead _ (by omega) (by omega) h
      · simp only [List.mem_cons, List.not_mem_nil, or_false] at h
        rcases h with h | h | h | h <;> exact hlead _ (by omega) (by omega) h

theorem Utf8.mem_of_mem_encode {s : String} {b : UInt8} (h : b ∈ encode s) (hb : b.toNat < 0x80) :
    Char.ofNat b.toNat ∈ s.toList := by
  obtain ⟨c, hc, hmem⟩ := List.mem_flatMap.1 h
  rwa [← eq_ofNat_of_mem_encodeChar hmem hb]

theorem lines_unlines {ls : List String} (h : ∀ l ∈ ls, '\n' ∉ l.toList) :
    lines (unlines ls) = ls.map fun l => dropReturn (Utf8.encode l) := by
  induction ls with
  | nil => rfl
  | cons l ls ih =>
    have hfeed : 10 ∉ Utf8.encode l := fun hmem =>
      h l (by simp) (Utf8.mem_of_mem_encode hmem (by decide))
    rw [unlines, List.flatMap_cons, List.append_assoc]
    show lines (Utf8.encode l ++ 10 :: unlines ls) = _
    rw [lines_append hfeed, ih fun l' hl' => h l' (by simp [hl'])]
    rfl

/-- What is left of a line is its text up to some place. -/
theorem exists_dropReturn_encode (s : String) :
    ∃ t : String, t.toList <+: s.toList ∧ dropReturn (Utf8.encode s) = Utf8.encode t := by
  rcases List.eq_nil_or_concat s.toList with hnil | ⟨cs, c, hconcat⟩
  · exact ⟨s, List.prefix_refl _, by rw [Utf8.encode, hnil]; rfl⟩
  · rw [List.concat_eq_append] at hconcat
    have hencode : Utf8.encode s = cs.flatMap Utf8.encodeChar ++ Utf8.encodeChar c := by
      rw [Utf8.encode, hconcat, List.flatMap_append, List.flatMap_singleton]
    by_cases hc : c = '\r'
    · refine ⟨String.ofList cs, ?_, ?_⟩
      · rw [hconcat, String.toList_ofList]
        exact List.prefix_append _ _
      · rw [hencode, hc, show Utf8.encodeChar '\r' = [13] from rfl, dropReturn_append _ (by simp),
          Utf8.encode, String.toList_ofList]
        exact List.append_nil _
    · have hkeep : 13 ∉ Utf8.encodeChar c := fun hmem =>
        hc (Utf8.eq_ofNat_of_mem_encodeChar hmem (by decide))
      have hne : Utf8.encodeChar c ≠ [] := by
        intro hnil
        have hscan := Utf8.scan_encodeChar c []
        rw [hnil] at hscan
        cases hscan
      refine ⟨s, List.prefix_refl _, ?_⟩
      rw [hencode, dropReturn_append _ hne, dropReturn_of_not_mem hkeep]

end TaggedRows.Text
