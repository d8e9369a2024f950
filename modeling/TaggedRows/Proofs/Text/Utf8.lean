import TaggedRows.Text.Utf8

/-!
# UTF-8 read back

The reading automaton undoes the writing of characters: from the start of a sequence it consumes
exactly the bytes of one character, yields that character and is at the start again
(`scan_encodeChar`).  Well-formed bytes therefore hold nothing to be replaced, and the lossy reading
of written text is that text (`decodeLossy_encode`).

The proof follows the four lengths of a sequence.  For the two longer ones the first byte also
narrows the bounds of the second, which is where overlong forms, surrogates and values beyond the
last character are shut out; that no character runs into these bounds is what `opening_three` and
`opening_four` show.

The bounds are also narrow enough.  Whenever the automaton yields a character it has consumed the
bytes of that character and no others (`scan_eq_cons`), so the strict reading accepts the bytes of a
text and nothing else (`decode?_eq_some_iff`).

The lossy reading gives some texts for more than their own bytes: exactly those that hold U+FFFD
(`decodeLossy_eq_iff`, `exists_illFormed`).
-/

namespace TaggedRows.Text.Utf8

/-! ## Bytes of a sequence -/

theorem toNat_valid (c : Char) : c.toNat < 0xD800 ∨ (0xDFFF < c.toNat ∧ c.toNat < 0x110000) :=
  c.valid

theorem toNat_byte {n : Nat} (h : n < 256) : (UInt8.ofNat n).toNat = n :=
  UInt8.toNat_ofNat_of_lt' h

/-- The last byte of a sequence completes its character. -/
theorem scan_last {low high v b : Nat} (hlow : low ≤ b) (hhigh : b ≤ high) (hb : b < 256)
    (bs : List UInt8) :
    scan (some ⟨low, high, 0, v⟩) (UInt8.ofNat b :: bs) =
      some (Char.ofNat (v * 64 + b % 64)) :: scan none bs := by
  rw [scan]
  simp only [toNat_byte hb]
  rw [if_pos ⟨hlow, hhigh⟩]

/-- A byte before the last leaves a sequence with the common bounds. -/
theorem scan_next {low high more v b : Nat} (hlow : low ≤ b) (hhigh : b ≤ high) (hb : b < 256)
    (bs : List UInt8) :
    scan (some ⟨low, high, more + 1, v⟩) (UInt8.ofNat b :: bs) =
      scan (some ⟨0x80, 0xBF, more, v * 64 + b % 64⟩) bs := by
  rw [scan]
  simp only [toNat_byte hb]
  rw [if_pos ⟨hlow, hhigh⟩]

/-- The first byte of a character of two bytes. -/
theorem opening_two {n : Nat} (h : 0x80 ≤ n) (h' : n < 0x800) :
    opening (UInt8.ofNat (0xC0 + n / 64)) = .inr ⟨0x80, 0xBF, 0, n / 64⟩ := by
  rw [opening]
  simp only [toNat_byte (show 0xC0 + n / 64 < 256 by omega)]
  rw [if_neg (by omega), if_neg (by omega), if_pos (by omega), Nat.add_sub_cancel_left]

/-- The first byte of a character of three bytes. -/
theorem opening_three {n : Nat} (h : 0x800 ≤ n) (h' : n < 0x10000)
    (hs : n < 0xD800 ∨ 0xDFFF < n) :
    ∃ low high, opening (UInt8.ofNat (0xE0 + n / 4096)) = .inr ⟨low, high, 1, n / 4096⟩ ∧
      low ≤ 0x80 + n / 64 % 64 ∧ 0x80 + n / 64 % 64 ≤ high := by
  rw [opening]
  simp only [toNat_byte (show 0xE0 + n / 4096 < 256 by omega)]
  rw [if_neg (by omega), if_neg (by omega), if_neg (by omega)]
  by_cases h0 : n / 4096 = 0
  · rw [if_pos (by omega), h0]
    exact ⟨0xA0, 0xBF, rfl, by omega, by omega⟩
  · rw [if_neg (by omega)]
    by_cases hd : n / 4096 = 13
    · rw [if_pos (by omega), hd]
      exact ⟨0x80, 0x9F, rfl, by omega, by omega⟩
    · rw [if_neg (by omega), if_pos (by omega), Nat.add_sub_cancel_left]
      exact ⟨0x80, 0xBF, rfl, by omega, by omega⟩

/-- The first byte of a character of four bytes. -/
theorem opening_four {n : Nat} (h : 0x10000 ≤ n) (h' : n < 0x110000) :
    ∃ low high, opening (UInt8.ofNat (0xF0 + n / 262144)) = .inr ⟨low, high, 2, n / 262144⟩ ∧
      low ≤ 0x80 + n / 4096 % 64 ∧ 0x80 + n / 4096 % 64 ≤ high := by
  rw [opening]
  simp only [toNat_byte (show 0xF0 + n / 262144 < 256 by omega)]
  rw [if_neg (by omega), if_neg (by omega), if_neg (by omega), if_neg (by omega),
    if_neg (by omega), if_neg (by omega)]
  by_cases h0 : n / 262144 = 0
  · rw [if_pos (by omega), h0]
    exact ⟨0x90, 0xBF, rfl, by omega, by omega⟩
  · rw [if_neg (by omega)]
    by_cases h4 : n / 262144 = 4
    · rw [if_neg (by omega), if_pos (by omega), h4]
      exact ⟨0x80, 0x8F, rfl, by omega, by omega⟩
    · rw [if_pos (by omega), Nat.add_sub_cancel_left]
      exact ⟨0x80, 0xBF, rfl, by omega, by omega⟩

/-! ## Characters and texts -/

/-- The bytes of a character are read back as that character, whatever follows them. -/
theorem scan_encodeChar (c : Char) (bs : List UInt8) :
    scan none (encodeChar c ++ bs) = some c :: scan none bs := by
  -- the character gives way to its number, over which the bounds are linear arithmetic
  have hvalid := toNat_valid c
  have hc := Char.ofNat_toNat c
  rw [encodeChar]
  generalize c.toNat = n at hvalid hc ⊢
  subst hc
  by_cases h1 : n < 0x80
  · have hb : (UInt8.ofNat n).toNat = n := toNat_byte (by omega)
    rw [if_pos h1, List.cons_append, List.nil_append, scan, opening]
    simp only [hb, if_pos h1]
  rw [if_neg h1]
  by_cases h2 : n < 0x800
  · rw [if_pos h2]
    simp only [List.cons_append, List.nil_append]
    rw [scan, opening_two (by omega) h2]
    simp only
    rw [scan_last (by omega) (by omega) (by omega)]
    congr 3
    omega
  rw [if_neg h2]
  by_cases h3 : n < 0x10000
  · obtain ⟨low, high, hopen, hlow, hhigh⟩ := opening_three (by omega) h3 (by omega)
    rw [if_pos h3]
    simp only [List.cons_append, List.nil_append]
    rw [scan, hopen]
    simp only
    rw [scan_next hlow hhigh (by omega), scan_last (by omega) (by omega) (by omega)]
    congr 3
    omega
  · obtain ⟨low, high, hopen, hlow, hhigh⟩ := opening_four (show 0x10000 ≤ n by omega) (by omega)
    rw [if_neg h3]
    simp only [List.cons_append, List.nil_append]
    rw [scan, hopen]
    simp only
    rw [scan_next hlow hhigh (by omega), scan_next (by omega) (by omega) (by omega),
      scan_last (by omega) (by omega) (by omega)]
    congr 3
    omega

theorem scan_flatMap_encodeChar (cs : List Char) :
    scan none (cs.flatMap encodeChar) = cs.map some := by
  induction cs with
  | nil => rfl
  | cons c cs ih => rw [List.flatMap_cons, scan_encodeChar, ih, List.map_cons]

/-- The strict reading of written text finds no fault. -/
theorem decode?_encode (s : String) : decode? (encode s) = some s := by
  have hchars : (s.toList.map some).mapM id = some s.toList := by
    induction s.toList with
    | nil => rfl
    | cons c cs ih => simp [ih]
  rw [decode?, encode, scan_flatMap_encodeChar, hchars, Option.map_some, String.ofList_toList]

/-- Reading bytes with replacement gives back the text they were written from. -/
theorem decodeLossy_encode (s : String) : decodeLossy (encode s) = s := by
  rw [decodeLossy, encode, scan_flatMap_encodeChar, List.map_map]
  simp [Function.comp_def]

/-! ## Well-formed bytes -/

/-- A sequence that yields a character goes on with a byte between the bounds. -/
theorem exists_byte_of_scan {p : Partial} {bytes : List UInt8} {c : Char} {out : List (Option Char)}
    (h : scan (some p) bytes = some c :: out) :
    ∃ b rest, bytes = b :: rest ∧ p.low ≤ b.toNat ∧ b.toNat ≤ p.high := by
  cases bytes with
  | nil => cases h
  | cons b rest =>
    rw [scan] at h
    split at h
    · rename_i hbounds
      exact ⟨b, rest, rfl, hbounds⟩
    · cases h

/-- The last byte of a sequence that yields a character. -/
theorem scan_last_eq_cons {low high v : Nat} {bytes : List UInt8} {c : Char}
    {out : List (Option Char)} (h : scan (some ⟨low, high, 0, v⟩) bytes = some c :: out) :
    ∃ b rest, bytes = b :: rest ∧ low ≤ b.toNat ∧ b.toNat ≤ high ∧
      c = Char.ofNat (v * 64 + b.toNat % 64) ∧ scan none rest = out := by
  obtain ⟨b, rest, rfl, hlow, hhigh⟩ := exists_byte_of_scan h
  rw [scan, if_pos ⟨hlow, hhigh⟩] at h
  cases h
  exact ⟨b, rest, rfl, hlow, hhigh, rfl, rfl⟩

/-- A byte before the last of a sequence that yields a character. -/
theorem scan_next_eq_cons {low high more v : Nat} {bytes : List UInt8} {c : Char}
    {out : List (Option Char)}
    (h : scan (some ⟨low, high, more + 1, v⟩) bytes = some c :: out) :
    ∃ b rest, bytes = b :: rest ∧ low ≤ b.toNat ∧ b.toNat ≤ high ∧
      scan (some ⟨0x80, 0xBF, more, v * 64 + b.toNat % 64⟩) rest = some c :: out := by
  obtain ⟨b, rest, rfl, hlow, hhigh⟩ := exists_byte_of_scan h
  rw [scan, if_pos ⟨hlow, hhigh⟩] at h
  exact ⟨b, rest, rfl, hlow, hhigh, h⟩

theorem opening_eq_inl {b : UInt8} {c : Char} (h : opening b = .inl (some c)) :
    b.toNat < 0x80 ∧ c = Char.ofNat b.toNat := by
  rw [opening] at h
  split at h
  · rename_i hb
    cases h
    exact ⟨hb, rfl⟩
  · repeat' split at h
    all_goals cases h

/-- What the first byte of a sequence of several bytes says: how many others follow, and which
second bytes are shut out. -/
theorem opening_eq_inr {b : UInt8} {p : Partial} (h : opening b = .inr p) :
    (∃ n, b.toNat = 0xC0 + n ∧ 2 ≤ n ∧ n < 32 ∧ p = ⟨0x80, 0xBF, 0, n⟩) ∨
    (∃ n low high, b.toNat = 0xE0 + n ∧ n < 16 ∧ p = ⟨low, high, 1, n⟩ ∧ 0x80 ≤ low ∧
      high ≤ 0xBF ∧ (n = 0 → 0xA0 ≤ low) ∧ (n = 13 → high ≤ 0x9F)) ∨
    ∃ n low high, b.toNat = 0xF0 + n ∧ n ≤ 4 ∧ p = ⟨low, high, 2, n⟩ ∧ 0x80 ≤ low ∧
      high ≤ 0xBF ∧ (n = 0 → 0x90 ≤ low) ∧ (n = 4 → high ≤ 0x8F) := by
  rw [opening] at h
  split at h
  · cases h
  split at h
  · cases h
  split at h
  · cases h
    exact .inl ⟨b.toNat - 0xC0, by omega, by omega, by omega, rfl⟩
  split at h
  · cases h
    exact .inr (.inl ⟨0, _, _, by omega, by omega, rfl, by omega, by omega, by omega, by omega⟩)
  split at h
  · cases h
    exact .inr (.inl ⟨13, _, _, by omega, by omega, rfl, by omega, by omega, by omega, by omega⟩)
  split at h
  · cases h
    exact .inr (.inl ⟨b.toNat - 0xE0, _, _, by omega, by omega, rfl, by omega, by omega, by omega,
      by omega⟩)
  split at h
  · cases h
    exact .inr (.inr ⟨0, _, _, by omega, by omega, rfl, by omega, by omega, by omega, by omega⟩)
  split at h
  · cases h
    exact .inr (.inr ⟨b.toNat - 0xF0, _, _, by omega, by omega, rfl, by omega, by omega, by omega,
      by omega⟩)
  split at h
  · cases h
    exact .inr (.inr ⟨4, _, _, by omega, by omega, rfl, by omega, by omega, by omega, by omega⟩)
  · cases h

theorem toNat_ofNat_char {n : Nat} (h : n < 0xD800 ∨ (0xDFFF < n ∧ n < 0x110000)) :
    (Char.ofNat n).toNat = n := by
  rw [Char.ofNat, dif_pos h]
  rfl

theorem eq_ofNat_byte {b : UInt8} {n : Nat} (h : b.toNat = n) : b = UInt8.ofNat n := by
  rw [← h, UInt8.ofNat_toNat]

/-- The two bytes that complete a sequence are the bytes of its character. -/
theorem encodeChar_ofNat_two {n : Nat} {b₀ b₁ : UInt8} (hn : 2 ≤ n) (hn' : n < 32)
    (h₀ : b₀.toNat = 0xC0 + n) (hlow : 0x80 ≤ b₁.toNat) (hhigh : b₁.toNat ≤ 0xBF) :
    encodeChar (Char.ofNat (n * 64 + b₁.toNat % 64)) = [b₀, b₁] := by
  have hc := toNat_ofNat_char (n := n * 64 + b₁.toNat % 64) (by omega)
  rw [encodeChar, hc, if_neg (by omega), if_pos (by omega)]
  rw [← eq_ofNat_byte (b := b₀) (by omega), ← eq_ofNat_byte (b := b₁) (by omega)]

/-- The three bytes that complete a sequence are the bytes of its character, since the second is
neither that of a shorter sequence nor that of a surrogate. -/
theorem encodeChar_ofNat_three {n : Nat} {b₀ b₁ b₂ : UInt8} (hn : n < 16)
    (h₀ : b₀.toNat = 0xE0 + n) (hlow₁ : 0x80 ≤ b₁.toNat) (hhigh₁ : b₁.toNat ≤ 0xBF)
    (hshort : n = 0 → 0xA0 ≤ b₁.toNat) (hsurrogate : n = 13 → b₁.toNat ≤ 0x9F)
    (hlow₂ : 0x80 ≤ b₂.toNat) (hhigh₂ : b₂.toNat ≤ 0xBF) :
    encodeChar (Char.ofNat ((n * 64 + b₁.toNat % 64) * 64 + b₂.toNat % 64)) = [b₀, b₁, b₂] := by
  have hc := toNat_ofNat_char (n := (n * 64 + b₁.toNat % 64) * 64 + b₂.toNat % 64) (by omega)
  rw [encodeChar, hc, if_neg (by omega), if_neg (by omega), if_pos (by omega)]
  rw [← eq_ofNat_byte (b := b₀) (by omega), ← eq_ofNat_byte (b := b₁) (by omega),
    ← eq_ofNat_byte (b := b₂) (by omega)]

/-- The four bytes that complete a sequence are the bytes of its character, since the second is
neither that of a shorter sequence nor that of a number beyond the last character. -/
theorem encodeChar_ofNat_four {n : Nat} {b₀ b₁ b₂ b₃ : UInt8} (hn : n ≤ 4)
    (h₀ : b₀.toNat = 0xF0 + n) (hlow₁ : 0x80 ≤ b₁.toNat) (hhigh₁ : b₁.toNat ≤ 0xBF)
    (hshort : n = 0 → 0x90 ≤ b₁.toNat) (hbeyond : n = 4 → b₁.toNat ≤ 0x8F)
    (hlow₂ : 0x80 ≤ b₂.toNat) (hhigh₂ : b₂.toNat ≤ 0xBF) (hlow₃ : 0x80 ≤ b₃.toNat)
    (hhigh₃ : b₃.toNat ≤ 0xBF) :
    encodeChar (Char.ofNat (((n * 64 + b₁.toNat % 64) * 64 + b₂.toNat % 64) * 64
      + b₃.toNat % 64)) = [b₀, b₁, b₂, b₃] := by
  have hc := toNat_ofNat_char
    (n := ((n * 64 + b₁.toNat % 64) * 64 + b₂.toNat % 64) * 64 + b₃.toNat % 64) (by omega)
  rw [encodeChar, hc, if_neg (by omega), if_neg (by omega), if_neg (by omega)]
  rw [← eq_ofNat_byte (b := b₀) (by omega), ← eq_ofNat_byte (b := b₁) (by omega),
    ← eq_ofNat_byte (b := b₂) (by omega), ← eq_ofNat_byte (b := b₃) (by omega)]

/-- A reading begins with a character exactly on the bytes of that character. -/
theorem scan_eq_cons {bytes : List UInt8} {c : Char} {out : List (Option Char)}
    (h : scan none bytes = some c :: out) :
    ∃ rest, bytes = encodeChar c ++ rest ∧ scan none rest = out := by
  cases bytes with
  | nil => cases h
  | cons b₀ bytes =>
    rw [scan] at h
    cases hopen : opening b₀ with
    | inl first =>
      rw [hopen] at h
      cases h
      obtain ⟨hb₀, rfl⟩ := opening_eq_inl hopen
      have hc := toNat_ofNat_char (n := b₀.toNat) (by omega)
      have hbytes : encodeChar (Char.ofNat b₀.toNat) = [b₀] := by
        rw [encodeChar, hc, if_pos hb₀, UInt8.ofNat_toNat]
      exact ⟨bytes, by rw [hbytes]; rfl, rfl⟩
    | inr p =>
      rw [hopen] at h
      simp only at h
      rcases opening_eq_inr hopen with ⟨n, h₀, hn, hn', rfl⟩ |
        ⟨n, low, high, h₀, hn, rfl, hlow, hhigh, hshort, hsurrogate⟩ |
        ⟨n, low, high, h₀, hn, rfl, hlow, hhigh, hshort, hbeyond⟩
      · obtain ⟨b₁, rest, rfl, hlow₁, hhigh₁, rfl, hrest⟩ := scan_last_eq_cons h
        have hbytes := encodeChar_ofNat_two hn hn' h₀ hlow₁ hhigh₁
        exact ⟨rest, by rw [hbytes]; rfl, hrest⟩
      · obtain ⟨b₁, rest, rfl, hlow₁, hhigh₁, h⟩ := scan_next_eq_cons h
        obtain ⟨b₂, rest, rfl, hlow₂, hhigh₂, rfl, hrest⟩ := scan_last_eq_cons h
        have hbytes := encodeChar_ofNat_three hn h₀ (Nat.le_trans hlow hlow₁)
          (Nat.le_trans hhigh₁ hhigh) (fun h0 => Nat.le_trans (hshort h0) hlow₁)
          (fun h13 => Nat.le_trans hhigh₁ (hsurrogate h13)) hlow₂ hhigh₂
        exact ⟨rest, by rw [hbytes]; rfl, hrest⟩
      · obtain ⟨b₁, rest, rfl, hlow₁, hhigh₁, h⟩ := scan_next_eq_cons h
        obtain ⟨b₂, rest, rfl, hlow₂, hhigh₂, h⟩ := scan_next_eq_cons h
        obtain ⟨b₃, rest, rfl, hlow₃, hhigh₃, rfl, hrest⟩ := scan_last_eq_cons h
        have hbytes := encodeChar_ofNat_four hn h₀ (Nat.le_trans hlow hlow₁)
          (Nat.le_trans hhigh₁ hhigh) (fun h0 => Nat.le_trans (hshort h0) hlow₁)
          (fun h4 => Nat.le_trans hhigh₁ (hbeyond h4)) hlow₂ hhigh₂ hlow₃ hhigh₃
        exact ⟨rest, by rw [hbytes]; rfl, hrest⟩

theorem scan_some_ne_nil (p : Partial) (bytes : List UInt8) : scan (some p) bytes ≠ [] := by
  induction bytes generalizing p with
  | nil => simp [scan]
  | cons b bytes ih =>
    rw [scan]
    split
    · cases p.more with
      | zero => simp
      | succ more => exact ih _
    · simp

theorem eq_nil_of_scan_eq_nil {bytes : List UInt8} (h : scan none bytes = []) : bytes = [] := by
  cases bytes with
  | nil => rfl
  | cons b bytes =>
    rw [scan] at h
    cases hopen : opening b with
    | inl first => simp [hopen] at h
    | inr p => simp [hopen, scan_some_ne_nil] at h

/-- A reading without faults is one of the bytes of the characters read. -/
theorem eq_flatMap_encodeChar_of_scan {bytes : List UInt8} {cs : List Char}
    (h : scan none bytes = cs.map some) : bytes = cs.flatMap encodeChar := by
  induction cs generalizing bytes with
  | nil => exact eq_nil_of_scan_eq_nil h
  | cons c cs ih =>
    obtain ⟨rest, rfl, hrest⟩ := scan_eq_cons h
    rw [List.flatMap_cons, ih hrest]

theorem mapM_id_eq_some {l : List (Option α)} {as : List α} (h : l.mapM id = some as) :
    l = as.map some := by
  induction l generalizing as with
  | nil => cases h; rfl
  | cons a l ih =>
    simp only [List.mapM_cons, Option.bind_eq_bind, Option.bind_eq_some_iff, id] at h
    obtain ⟨b, rfl, bs, hbs, h⟩ := h
    cases h
    rw [ih hbs, List.map_cons]

/-- The strict reading accepts the bytes of a text and no others. -/
theorem decode?_eq_some_iff {bytes : List UInt8} {s : String} :
    decode? bytes = some s ↔ bytes = encode s := by
  constructor
  · intro h
    obtain ⟨cs, hcs, rfl⟩ := Option.map_eq_some_iff.1 h
    rw [eq_flatMap_encodeChar_of_scan (mapM_id_eq_some hcs), encode, String.toList_ofList]
  · rintro rfl
    exact decode?_encode s

/-! ## Ill-formed bytes -/

theorem scan_encode_append (s : String) (bytes : List UInt8) :
    scan none (encode s ++ bytes) = s.toList.map some ++ scan none bytes := by
  rw [encode]
  induction s.toList with
  | nil => rfl
  | cons c cs ih =>
    rw [List.flatMap_cons, List.append_assoc, scan_encodeChar, ih]
    rfl

/-- Bytes without faults are the bytes of their text. -/
theorem eq_encode_of_none_not_mem {bytes : List UInt8} (h : none ∉ scan none bytes) :
    bytes = encode (decodeLossy bytes) := by
  have hscan : scan none bytes = ((scan none bytes).map (·.getD '\uFFFD')).map some := by
    rw [List.map_map]
    refine (List.map_id _).symm.trans (List.map_congr_left ?_)
    intro out hout
    cases out with
    | none => exact absurd hout h
    | some c => rfl
  rw [encode, decodeLossy, String.toList_ofList]
  exact eq_flatMap_encodeChar_of_scan hscan

/-- A text that other bytes are read as holds U+FFFD. -/
theorem mem_decodeLossy_of_ne {bytes : List UInt8} (h : bytes ≠ encode (decodeLossy bytes)) :
    '\uFFFD' ∈ (decodeLossy bytes).toList := by
  by_cases hfault : none ∈ scan none bytes
  · rw [decodeLossy, String.toList_ofList, List.mem_map]
    exact ⟨none, hfault, rfl⟩
  · exact absurd (eq_encode_of_none_not_mem hfault) h

/-- A text without U+FFFD is read from its own bytes and no others. -/
theorem decodeLossy_eq_iff {bytes : List UInt8} {s : String} (h : '\uFFFD' ∉ s.toList) :
    decodeLossy bytes = s ↔ bytes = encode s := by
  constructor
  · rintro rfl
    exact Classical.byContradiction fun hne => h (mem_decodeLossy_of_ne hne)
  · rintro rfl
    exact decodeLossy_encode s

/-- A text with U+FFFD is read from bytes that spell no text, too. -/
theorem exists_illFormed {s : String} (h : '\uFFFD' ∈ s.toList) :
    ∃ bytes, decode? bytes = none ∧ decodeLossy bytes = s := by
  obtain ⟨before, after, hs⟩ := List.append_of_mem h
  -- a byte that begins no sequence in place of the character
  refine ⟨encode (String.ofList before) ++ 0xFF :: encode (String.ofList after), ?_⟩
  have hscan : scan none (encode (String.ofList before) ++ 0xFF :: encode (String.ofList after)) =
      before.map some ++ none :: after.map some := by
    have hfault : ∀ bytes, scan none (0xFF :: bytes) = none :: scan none bytes := fun _ => rfl
    have hafter := scan_encode_append (String.ofList after) []
    rw [List.append_nil, String.toList_ofList] at hafter
    rw [scan_encode_append, String.toList_ofList, hfault, hafter]
    exact congrArg (fun out => before.map some ++ none :: out) (List.append_nil _)
  constructor
  · rw [Option.eq_none_iff_forall_ne_some]
    intro t ht
    have hall := scan_flatMap_encodeChar t.toList
    rw [← encode, ← decode?_eq_some_iff.1 ht, hscan] at hall
    have hnone : none ∈ t.toList.map some := by
      rw [← hall]
      exact List.mem_append_right _ List.mem_cons_self
    simp at hnone
  · rw [decodeLossy, hscan, List.map_append, List.map_cons, List.map_map, List.map_map]
    simp only [Function.comp_def, Option.getD_some, Option.getD_none, List.map_id']
    rw [← hs, String.ofList_toList]

end TaggedRows.Text.Utf8
