import TaggedRows.Json.Printer
import TaggedRows.Json.Token
import TaggedRows.Proofs.Json.Numeral

/-!
# The tokens of printed values

Cutting the text of a value yields its tokens again (`Json.tokens?_text`).  Brackets, commas and
colons end with themselves and a string ends with its quote, but a word goes on for as long as the
characters of words do, so what follows a printed value has to begin with another one
(`Json.EndsWord`).  That holds of whatever is printed behind a value.

No character below a space is printed (`Json.le_toNat_of_mem_text`), so a printed value stays on one
line.
-/

namespace TaggedRows.Json

open TaggedRows.Text

/-! ## The tokens of a value -/

mutual

/-- The tokens of a value. -/
def tokens : Json → List Token
  | .array [] => [.openArray, .closeArray]
  | .array (j :: items) => .openArray :: (j.tokens ++ (itemsTokens items ++ [.closeArray]))
  | .object [] => [.openObject, .closeObject]
  | .object ((key, j) :: members) =>
    .openObject :: .string key :: .colon :: (j.tokens ++ (membersTokens members ++ [.closeObject]))
  | .string s => [.string s]
  | j => [.atom j]

/-- The tokens of an array's items behind the first. -/
def itemsTokens : List Json → List Token
  | [] => []
  | j :: items => .comma :: (j.tokens ++ itemsTokens items)

/-- The tokens of an object's members behind the first. -/
def membersTokens : List (Option String × Json) → List Token
  | [] => []
  | (key, j) :: members => .comma :: .string key :: .colon :: (j.tokens ++ membersTokens members)

end

/-! ## Reading on -/

/-- A word that comes before the characters ends there. -/
def EndsWord (cs : List Char) : Prop := ∀ c ∈ cs.head?, isWordChar c = false

theorem EndsWord.append {cs rest : List Char} (hcs : EndsWord cs) (hrest : EndsWord rest) :
    EndsWord (cs ++ rest) := by
  cases cs with
  | nil => exact hrest
  | cons c cs => exact hcs

theorem tokensFrom_cons {mode mode' : Mode} {c : Char} {ts : List Token}
    (h : readChar mode c = some (ts, mode')) (cs : List Char) :
    tokensFrom mode (c :: cs) = (tokensFrom mode' cs).map (ts ++ ·) := by
  simp only [tokensFrom, h, Option.bind_eq_bind, Option.bind_some]
  cases tokensFrom mode' cs <;> rfl

theorem tokensFrom_eq_none {mode : Mode} {c : Char} (h : readChar mode c = none)
    (cs : List Char) : tokensFrom mode (c :: cs) = none := by
  rw [tokensFrom, h]
  rfl

/-- A character that is read without completing a token. -/
theorem tokensFrom_step {mode mode' : Mode} {c : Char} (h : readChar mode c = some ([], mode'))
    (cs : List Char) : tokensFrom mode (c :: cs) = tokensFrom mode' cs := by
  rw [tokensFrom_cons h]
  cases tokensFrom mode' cs <;> rfl

/-- The characters are a print of the tokens: whatever ends a word may follow them, they are cut
into these tokens, and none of them stands below a space. -/
structure Prints (cs : List Char) (ts : List Token) : Prop where
  tokensFrom_append : ∀ rest, EndsWord rest →
    tokensFrom .between (cs ++ rest) = (tokensFrom .between rest).map (ts ++ ·)
  le_toNat : ∀ c ∈ cs, 0x20 ≤ c.toNat

namespace Prints

variable {cs ds : List Char} {ts us : List Token}

theorem nil : Prints [] [] where
  tokensFrom_append rest _ := by cases h : tokensFrom .between rest <;> simp [h]
  le_toNat := by simp

theorem append (hcs : Prints cs ts) (hds : Prints ds us) (hends : EndsWord ds) :
    Prints (cs ++ ds) (ts ++ us) where
  tokensFrom_append rest hrest := by
    rw [List.append_assoc, hcs.tokensFrom_append _ (hends.append hrest),
      hds.tokensFrom_append rest hrest, Option.map_map]
    congr 1
    funext ws
    exact (List.append_assoc ts us ws).symm
  le_toNat c hc := (List.mem_append.1 hc).elim (hcs.le_toNat c) (hds.le_toNat c)

/-- A character that is a token of its own. -/
theorem cons {c : Char} {t : Token} (hle : 0x20 ≤ c.toNat)
    (h : readChar .between c = some ([t], .between)) (hcs : Prints cs ts) :
    Prints (c :: cs) (t :: ts) where
  tokensFrom_append rest hrest := by
    rw [List.cons_append, tokensFrom_cons h, hcs.tokensFrom_append rest hrest, Option.map_map]
    rfl
  le_toNat := List.forall_mem_cons.2 ⟨hle, hcs.le_toNat⟩

end Prints

/-! ## Words -/

theorem startToken_word {c : Char} (h : isWordChar c = true) :
    startToken c = some ([], .word [c]) := by
  have hne : ∀ d, isWordChar d = false → c ≠ d := fun d hd he => by simp [← he, h] at hd
  have hspace := hne ' ' (by decide)
  have htab := hne '\t' (by decide)
  have hfeed := hne '\n' (by decide)
  have hreturn := hne '\r' (by decide)
  have hopenArray := hne '[' (by decide)
  have hcloseArray := hne ']' (by decide)
  have hopenObject := hne '\x7b' (by decide)
  have hcloseObject := hne '\x7d' (by decide)
  have hcomma := hne ',' (by decide)
  have hcolon := hne ':' (by decide)
  have hquote := hne '"' (by decide)
  simp only [startToken, *, or_self, if_false, if_true]

theorem tokensFrom_word_append {word : List Char} (hword : ∀ c ∈ word, isWordChar c = true)
    (read rest : List Char) :
    tokensFrom (.word read) (word ++ rest) = tokensFrom (.word (word.reverse ++ read)) rest := by
  induction word generalizing read with
  | nil => rfl
  | cons c word ih =>
    have hc : isWordChar c = true := hword c (by simp)
    have hstep : readChar (.word read) c = some ([], .word (c :: read)) := if_pos hc
    rw [List.cons_append, tokensFrom_step hstep, ih fun d hd => hword d (by simp [hd])]
    simp

theorem tokensFrom_word_end {read rest : List Char} {t : Token}
    (ht : wordToken? read.reverse = some t) (hrest : EndsWord rest) :
    tokensFrom (.word read) rest = (tokensFrom .between rest).map ([t] ++ ·) := by
  cases rest with
  | nil => simp [tokensFrom, finish, ht]
  | cons c cs =>
    have hc : isWordChar c = false := hrest c rfl
    -- the character behind the word is read as it would be between tokens
    have hend : readChar (.word read) c =
        (startToken c).map fun start => (t :: start.1, start.2) := by
      simp only [readChar, hc, ht, Bool.false_eq_true, if_false]
      cases startToken c <;> rfl
    cases hstart : readChar .between c with
    | none =>
      rw [show startToken c = none from hstart] at hend
      rw [tokensFrom_eq_none hend, tokensFrom_eq_none hstart]
      rfl
    | some start =>
      rw [show startToken c = some start from hstart] at hend
      rw [tokensFrom_cons hend, tokensFrom_cons hstart, Option.map_map]
      rfl

theorem le_toNat_of_isWordChar {c : Char} (h : isWordChar c = true) : 0x20 ≤ c.toNat := by
  refine Nat.not_lt.1 fun hlt => ?_
  have hcontrol := forall_char_lt (P := fun c => isWordChar c = false) (by decide) hlt
  rw [h] at hcontrol
  cases hcontrol

/-- A word is a print of the token that it is. -/
theorem prints_word {word : List Char} {t : Token} (hne : word ≠ [])
    (hword : ∀ c ∈ word, isWordChar c = true) (ht : wordToken? word = some t) :
    Prints word [t] where
  tokensFrom_append rest hrest := by
    obtain ⟨c, cs, rfl⟩ := List.exists_cons_of_ne_nil hne
    have hstart : readChar .between c = some ([], .word [c]) := startToken_word (hword c (by simp))
    rw [List.cons_append, tokensFrom_step hstart,
      tokensFrom_word_append (fun d hd => hword d (by simp [hd]))]
    exact tokensFrom_word_end (by simpa using ht) hrest
  le_toNat c hc := le_toNat_of_isWordChar (hword c hc)

theorem isWordChar_of_mem_text {n : Numeral} (h : n.isWritten = true) {c : Char}
    (hc : c ∈ n.text.toList) : isWordChar c = true := by
  rcases Numeral.mem_text h hc with hdigit | hmark
  · simp [isWordChar, Char.isAlphanum, hdigit]
  · have hmarks : ['+', '-', '.', 'e'].all isWordChar = true := by decide
    exact List.all_eq_true.1 hmarks c hmark

theorem prints_number {n : Numeral} (h : n.isWritten = true) :
    Prints n.text.toList [.atom (.number n)] := by
  have hread := Numeral.ofChars?_text h
  have hne : ∀ cs, Numeral.ofChars? cs = none → n.text.toList ≠ cs := by
    rintro cs hcs he
    rw [he, hcs] at hread
    cases hread
  refine prints_word (hne [] (by decide)) (fun c hc => isWordChar_of_mem_text h hc) ?_
  rw [wordToken?, if_neg (hne _ (by decide +kernel)), if_neg (hne _ (by decide +kernel)),
    if_neg (hne _ (by decide +kernel)), hread]
  rfl

/-! ## String literals -/

/-- The characters that a letter or they themselves stand for behind a backslash. -/
def letterEscaped : List Char := ['"', '\\', '\x08', '\x0c', '\n', '\r', '\t']

/-- The piece that a printed character is read as. -/
def pieceOf (c : Char) : Piece :=
  if c ∉ letterEscaped ∧ c.toNat < 0x20 then .code c.toNat else .char c

/-- An escape below the surrogates stands for a character of its own. -/
theorem joinPieces_code {unit : Nat} (h : unit < 0xD800) (ps : List Piece) :
    joinPieces (.code unit :: ps) = (joinPieces ps).map (Char.ofNat unit :: ·) := by
  have hhigh : ¬ (0xD800 ≤ unit ∧ unit < 0xE000) := by omega
  have hpair : ∀ low, ¬ (0xD800 ≤ unit ∧ unit < 0xDC00 ∧ 0xDC00 ≤ low ∧ low < 0xE000) := by omega
  cases ps with
  | nil => simp [joinPieces, hhigh]
  | cons p ps =>
    cases p with
    | char c => simp [joinPieces, hhigh]
    | code low => rw [joinPieces, if_neg (hpair low), if_neg hhigh]

theorem joinPieces_map_pieceOf (cs : List Char) : joinPieces (cs.map pieceOf) = some cs := by
  induction cs with
  | nil => rfl
  | cons c cs ih =>
    rw [List.map_cons]
    by_cases hc : c ∉ letterEscaped ∧ c.toNat < 0x20
    · rw [pieceOf, if_pos hc, joinPieces_code (by omega), ih, Char.ofNat_toNat]
      rfl
    · rw [pieceOf, if_neg hc, joinPieces, ih]
      rfl

theorem hexValue?_hexDigit (n : Nat) : hexValue? (hexDigit n) = some (n % 16) := by
  have hall : ∀ d < 16, hexValue? (digitChar d) = some d := by decide
  exact hall (n % 16) (Nat.mod_lt n (by decide))

theorem tokensFrom_letter {x d : Char} (hx : x ≠ 'u') (hd : unescape? x = some d)
    (read : List Piece) (rest : List Char) :
    tokensFrom (.literal read) ('\\' :: x :: rest) = tokensFrom (.literal (.char d :: read)) rest := by
  have hbackslash : readChar (.literal read) '\\' = some ([], .escape read) := rfl
  have hletter : readChar (.escape read) x = some ([], .literal (.char d :: read)) := by
    rw [readChar, if_neg hx, hd]
    rfl
  rw [tokensFrom_step hbackslash, tokensFrom_step hletter]

/-- A `\u` escape below 256. -/
theorem tokensFrom_code {unit : Nat} (h : unit < 256) (read : List Piece) (rest : List Char) :
    tokensFrom (.literal read)
        ('\\' :: 'u' :: '0' :: '0' :: hexDigit (unit / 16) :: hexDigit unit :: rest) =
      tokensFrom (.literal (.code unit :: read)) rest := by
  have hbackslash : readChar (.literal read) '\\' = some ([], .escape read) := rfl
  have hu : readChar (.escape read) 'u' = some ([], .code read 0 4) := rfl
  have hzero : readChar (.code read 0 4) '0' = some ([], .code read 0 3) := rfl
  have hzero' : readChar (.code read 0 3) '0' = some ([], .code read 0 2) := rfl
  have hhigh : readChar (.code read 0 2) (hexDigit (unit / 16)) =
      some ([], .code read (unit / 16) 1) := by
    simp [readChar, hexValue?_hexDigit, Nat.mod_eq_of_lt (show unit / 16 < 16 by omega)]
  have hlow : readChar (.code read (unit / 16) 1) (hexDigit unit) =
      some ([], .literal (.code unit :: read)) := by
    simp [readChar, hexValue?_hexDigit, show unit / 16 * 16 + unit % 16 = unit by omega]
  rw [tokensFrom_step hbackslash, tokensFrom_step hu, tokensFrom_step hzero,
    tokensFrom_step hzero', tokensFrom_step hhigh, tokensFrom_step hlow]

theorem escapeChar_of_not_mem {c : Char} (h : c ∉ letterEscaped) : escapeChar c =
    if c.toNat < 0x20 then ['\\', 'u', '0', '0', hexDigit (c.toNat / 16), hexDigit c.toNat]
    else [c] := by
  simp only [letterEscaped, List.mem_cons, List.not_mem_nil, or_false, not_or] at h
  simp only [escapeChar, h, if_false]

theorem tokensFrom_escapeChar (read : List Piece) (c : Char) (rest : List Char) :
    tokensFrom (.literal read) (escapeChar c ++ rest) =
      tokensFrom (.literal (pieceOf c :: read)) rest := by
  by_cases hc : c ∈ letterEscaped
  · simp only [letterEscaped, List.mem_cons, List.not_mem_nil, or_false] at hc
    rcases hc with rfl | rfl | rfl | rfl | rfl | rfl | rfl <;>
      exact tokensFrom_letter (by decide) rfl read rest
  · rw [escapeChar_of_not_mem hc, pieceOf]
    by_cases hcontrol : c.toNat < 0x20
    · rw [if_pos hcontrol, if_pos ⟨hc, hcontrol⟩]
      exact tokensFrom_code (by omega) read rest
    · rw [if_neg hcontrol, if_neg fun h => hcontrol h.2]
      have hquote : c ≠ '"' := fun he => hc (by simp [he, letterEscaped])
      have hbackslash : c ≠ '\\' := fun he => hc (by simp [he, letterEscaped])
      have hread : readChar (.literal read) c = some ([], .literal (.char c :: read)) := by
        rw [readChar, if_neg hquote, if_neg hbackslash, if_neg hcontrol]
      exact tokensFrom_step hread rest

theorem tokensFrom_escaped (cs : List Char) (read : List Piece) (rest : List Char) :
    tokensFrom (.literal read) (cs.flatMap escapeChar ++ rest) =
      tokensFrom (.literal ((cs.map pieceOf).reverse ++ read)) rest := by
  induction cs generalizing read with
  | nil => rfl
  | cons c cs ih =>
    rw [List.flatMap_cons, List.append_assoc, tokensFrom_escapeChar, ih]
    simp

theorem le_toNat_hexDigit (n : Nat) : 0x20 ≤ (hexDigit n).toNat := by
  have hall : ∀ d < 16, 0x20 ≤ (digitChar d).toNat := by decide
  exact hall (n % 16) (Nat.mod_lt n (by decide))

theorem le_toNat_of_mem_escapeChar {c d : Char} (h : d ∈ escapeChar c) : 0x20 ≤ d.toNat := by
  by_cases hc : c ∈ letterEscaped
  · have hall : letterEscaped.all (fun c => (escapeChar c).all fun d => 0x20 ≤ d.toNat) = true := by
      decide
    exact of_decide_eq_true (List.all_eq_true.1 (List.all_eq_true.1 hall c hc) d h)
  · rw [escapeChar_of_not_mem hc] at h
    split at h
    · simp only [List.mem_cons, List.not_mem_nil, or_false] at h
      rcases h with rfl | rfl | rfl | rfl | rfl | rfl
      all_goals first | exact le_toNat_hexDigit _ | decide
    · rw [List.mem_singleton.1 h]
      omega

theorem literalChars_some (s : String) :
    literalChars (some s) = '"' :: (s.toList.flatMap escapeChar ++ ['"']) := rfl

/-- A string literal is a print of its string. -/
theorem prints_literal (s : String) : Prints (literalChars (some s)) [.string (some s)] where
  tokensFrom_append rest _ := by
    have hopen : readChar .between '"' = some ([], .literal []) := rfl
    have hclose : readChar (.literal (s.toList.map pieceOf).reverse) '"' =
        some ([.string (some s)], .between) := by
      rw [readChar, if_pos rfl, List.reverse_reverse, joinPieces_map_pieceOf, Option.map_some,
        String.ofList_toList]
    rw [literalChars_some, List.cons_append, tokensFrom_step hopen, List.append_assoc,
      tokensFrom_escaped, List.append_nil]
    exact tokensFrom_cons hclose rest
  le_toNat d hd := by
    rw [literalChars_some, List.mem_cons, List.mem_append, List.mem_flatMap,
      List.mem_singleton] at hd
    rcases hd with rfl | ⟨c, -, hd⟩ | rfl
    · decide
    · exact le_toNat_of_mem_escapeChar hd
    · decide

/-! ## Values -/

theorem endsWord_itemsChars (items : List Json) : EndsWord (itemsChars items ++ [']']) := by
  cases items <;> (rintro c ⟨⟩; rfl)

theorem endsWord_membersChars (members : List (Option String × Json)) :
    EndsWord (membersChars members ++ ['\x7d']) := by
  cases members <;> (rintro c ⟨⟩; rfl)

theorem prints_member (key : String) {cs : List Char} {ts : List Token} (h : Prints cs ts) :
    Prints (literalChars (some key) ++ ':' :: cs) (.string (some key) :: .colon :: ts) :=
  (prints_literal key).append (.cons (by decide) rfl h) (by rintro c ⟨⟩; rfl)

mutual

/-- The characters of a value are a print of its tokens.  Items and members are taken together with
the bracket behind them, so that after each value something stands that ends a word. -/
theorem prints_chars (j : Json) (h : j.allLeaves Numeral.isWritten = true) :
    Prints j.chars j.tokens := by
  match j with
  | .null => exact prints_word (by decide) (List.all_eq_true.1 (by decide)) rfl
  | .bool true => exact prints_word (by decide) (List.all_eq_true.1 (by decide)) rfl
  | .bool false => exact prints_word (by decide) (List.all_eq_true.1 (by decide)) rfl
  | .number n => exact prints_number h
  | .string none => cases h
  | .string (some s) => exact prints_literal s
  | .array [] => exact .cons (by decide) rfl (.cons (by decide) rfl .nil)
  | .array (j :: items) =>
    obtain ⟨hj, hitems⟩ := Bool.and_eq_true_iff.1 h
    exact .cons (by decide) rfl ((prints_chars j hj).append (prints_itemsChars items hitems)
      (endsWord_itemsChars items))
  | .object [] => exact .cons (by decide) rfl (.cons (by decide) rfl .nil)
  | .object ((none, j) :: members) => cases h
  | .object ((some key, j) :: members) =>
    obtain ⟨hj, hmembers⟩ := Bool.and_eq_true_iff.1 h
    exact .cons (by decide) rfl (prints_member key ((prints_chars j hj).append
      (prints_membersChars members hmembers) (endsWord_membersChars members)))

theorem prints_itemsChars (items : List Json) (h : allItems Numeral.isWritten items = true) :
    Prints (itemsChars items ++ [']']) (itemsTokens items ++ [.closeArray]) := by
  match items with
  | [] => exact .cons (by decide) rfl .nil
  | j :: items =>
    obtain ⟨hj, hitems⟩ := Bool.and_eq_true_iff.1 h
    have hitem := (prints_chars j hj).append (prints_itemsChars items hitems)
      (endsWord_itemsChars items)
    simpa [itemsChars, itemsTokens] using Prints.cons (c := ',') (t := .comma) (by decide) rfl hitem

theorem prints_membersChars (members : List (Option String × Json))
    (h : allMembers Numeral.isWritten members = true) :
    Prints (membersChars members ++ ['\x7d']) (membersTokens members ++ [.closeObject]) := by
  match members with
  | [] => exact .cons (by decide) rfl .nil
  | (none, j) :: members => cases h
  | (some key, j) :: members =>
    obtain ⟨hj, hmembers⟩ := Bool.and_eq_true_iff.1 h
    have hmember := prints_member key ((prints_chars j hj).append
      (prints_membersChars members hmembers) (endsWord_membersChars members))
    simpa [membersChars, membersTokens] using
      Prints.cons (c := ',') (t := .comma) (by decide) rfl hmember

end

/-- The text of a value is cut into the value's tokens. -/
theorem tokens?_text {j : Json} (h : j.allLeaves Numeral.isWritten = true) :
    tokens? j.text = some j.tokens := by
  have hcut := (prints_chars j h).tokensFrom_append [] (by rintro c ⟨⟩)
  rw [List.append_nil] at hcut
  rw [tokens?, text, String.toList_ofList, hcut]
  simp [tokensFrom, finish]

/-- No character below a space is printed. -/
theorem le_toNat_of_mem_text {j : Json} (h : j.allLeaves Numeral.isWritten = true) {c : Char}
    (hc : c ∈ j.text.toList) : 0x20 ≤ c.toNat := by
  rw [text, String.toList_ofList] at hc
  exact (prints_chars j h).le_toNat c hc

end TaggedRows.Json
