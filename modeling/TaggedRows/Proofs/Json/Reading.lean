import TaggedRows.Json.Reader
import TaggedRows.Proofs.Json.Tokens

/-!
# Printed values read back

Reading the text of a value gives back the value (`Json.read?_text`).  The tokens of a value take
the machine from waiting for a value to having completed this one, whatever is open around it
(`Json.ofTokens?_tokens`).
-/

namespace TaggedRows.Json

/-- Read on with a value finished. -/
def resume (frames : List Frame) (j : Json) (rest : List Token) : Option Json :=
  ofTokens? (complete frames j).1 (complete frames j).2 rest

theorem resume_array (frames : List Frame) (items : List Json) (j : Json) (rest : List Token) :
    resume (.array items :: frames) j rest = ofTokens? frames (.itemEnd (j :: items)) rest := rfl

theorem resume_object (frames : List Frame) (members : List (Option String × Json))
    (key : Option String) (j : Json) (rest : List Token) :
    resume (.object members key :: frames) j rest =
      ofTokens? frames (.memberEnd ((key, j) :: members)) rest := rfl

/-- The first item of an array is read like any other value: no value begins with a closing
bracket. -/
theorem ofTokens?_firstItem (frames : List Frame) (j : Json) (rest : List Token) :
    ofTokens? frames .firstItem (j.tokens ++ rest) =
      ofTokens? (.array [] :: frames) .value (j.tokens ++ rest) := by
  match j with
  | .null | .bool _ | .number _ | .string _ | .array [] | .array (_ :: _) | .object []
  | .object ((_, _) :: _) => rfl

mutual

/-- The tokens of a value are read as the value, whatever is open around it. -/
theorem ofTokens?_tokens (j : Json) (frames : List Frame) (rest : List Token) :
    ofTokens? frames .value (j.tokens ++ rest) = resume frames j rest := by
  match j with
  | .null | .bool _ | .number _ | .string _ | .array [] | .object [] => rfl
  | .array (j :: items) =>
    simp only [tokens, List.cons_append, List.append_assoc, List.nil_append]
    show ofTokens? frames .firstItem _ = _
    rw [ofTokens?_firstItem, ofTokens?_tokens j, resume_array, ofTokens?_itemsTokens items]
    rfl
  | .object ((key, j) :: members) =>
    simp only [tokens, List.cons_append, List.append_assoc, List.nil_append]
    show ofTokens? (.object [] key :: frames) .value _ = _
    rw [ofTokens?_tokens j, resume_object, ofTokens?_membersTokens members]
    rfl

theorem ofTokens?_itemsTokens (items read : List Json) (frames : List Frame)
    (rest : List Token) :
    ofTokens? frames (.itemEnd read) (itemsTokens items ++ .closeArray :: rest) =
      resume frames (.array (read.reverse ++ items)) rest := by
  match items with
  | [] =>
    rw [List.append_nil]
    rfl
  | j :: items =>
    simp only [itemsTokens, List.cons_append, List.append_assoc]
    show ofTokens? (.array read :: frames) .value _ = _
    rw [ofTokens?_tokens j, resume_array, ofTokens?_itemsTokens items]
    simp

theorem ofTokens?_membersTokens (members read : List (Option String × Json))
    (frames : List Frame) (rest : List Token) :
    ofTokens? frames (.memberEnd read) (membersTokens members ++ .closeObject :: rest) =
      resume frames (.object (read.reverse ++ members)) rest := by
  match members with
  | [] =>
    rw [List.append_nil]
    rfl
  | (key, j) :: members =>
    simp only [membersTokens, List.cons_append, List.append_assoc]
    show ofTokens? (.object read key :: frames) .value _ = _
    rw [ofTokens?_tokens j, resume_object, ofTokens?_membersTokens members]
    simp

end

/-- A value whose literals spell texts is read back from its text. -/
theorem read?_text {j : Json} (h : j.allLeaves Numeral.isWritten = true) :
    read? j.text = some j := by
  have hread := ofTokens?_tokens j [] []
  rw [List.append_nil] at hread
  rw [read?, tokens?_text h]
  exact hread

end TaggedRows.Json
