/-!
# UTF-8

Text as bytes and back.  Reading runs one automaton over the bytes (`scan`): each well-formed
sequence becomes its character, and each maximal part that no well-formed sequence continues
becomes one fault.  The strict reading refuses faults, the lossy reading writes U+FFFD for each.
-/

namespace TaggedRows.Text.Utf8

/-! ## Writing -/

/-- The one to four bytes of a character. -/
def encodeChar (c : Char) : List UInt8 :=
  let n := c.toNat
  if n < 0x80 then [UInt8.ofNat n]
  else if n < 0x800 then [UInt8.ofNat (0xC0 + n / 64), UInt8.ofNat (0x80 + n % 64)]
  else if n < 0x10000 then
    [UInt8.ofNat (0xE0 + n / 4096), UInt8.ofNat (0x80 + n / 64 % 64), UInt8.ofNat (0x80 + n % 64)]
  else
    [UInt8.ofNat (0xF0 + n / 262144), UInt8.ofNat (0x80 + n / 4096 % 64),
      UInt8.ofNat (0x80 + n / 64 % 64), UInt8.ofNat (0x80 + n % 64)]

/-- The bytes of a text. -/
def encode (s : String) : List UInt8 := s.toList.flatMap encodeChar

/-! ## Reading -/

/-- A sequence of which some bytes are still to come: the next byte has to lie between `low` and
`high`, `more` others follow it, and the bytes so far spell `value`. -/
structure Partial where
  low : Nat
  high : Nat
  more : Nat
  value : Nat
deriving DecidableEq

/-- What a byte at the start of a sequence means: a whole character, a fault, or a sequence to be
continued.  The bounds on the second byte shut out overlong forms, surrogates and values above
U+10FFFF. -/
def opening (b : UInt8) : Option Char ⊕ Partial :=
  let n := b.toNat
  if n < 0x80 then .inl (some (Char.ofNat n))
  else if n < 0xC2 then .inl none
  else if n < 0xE0 then .inr ⟨0x80, 0xBF, 0, n - 0xC0⟩
  else if n = 0xE0 then .inr ⟨0xA0, 0xBF, 1, 0⟩
  else if n = 0xED then .inr ⟨0x80, 0x9F, 1, 13⟩
  else if n < 0xF0 then .inr ⟨0x80, 0xBF, 1, n - 0xE0⟩
  else if n = 0xF0 then .inr ⟨0x90, 0xBF, 2, 0⟩
  else if n < 0xF4 then .inr ⟨0x80, 0xBF, 2, n - 0xF0⟩
  else if n = 0xF4 then .inr ⟨0x80, 0x8F, 2, 4⟩
  else .inl none

/-- The characters and faults that the bytes spell, after an unfinished sequence if there is one. -/
def scan : Option Partial → List UInt8 → List (Option Char)
  | none, [] => []
  | some _, [] => [none]
  | none, b :: bs =>
    match opening b with
    | .inl out => out :: scan none bs
    | .inr p => scan (some p) bs
  | some p, b :: bs =>
    if p.low ≤ b.toNat ∧ b.toNat ≤ p.high then
      let value := p.value * 64 + b.toNat % 64
      match p.more with
      | 0 => some (Char.ofNat value) :: scan none bs
      | more + 1 => scan (some ⟨0x80, 0xBF, more, value⟩) bs
    else
      none ::
        match opening b with
        | .inl out => out :: scan none bs
        | .inr p => scan (some p) bs

/-- The text that the bytes spell, if they are well-formed. -/
def decode? (bytes : List UInt8) : Option String :=
  ((scan none bytes).mapM id).map String.ofList

/-- The text that the bytes spell, with U+FFFD for each maximal ill-formed part. -/
def decodeLossy (bytes : List UInt8) : String :=
  String.ofList ((scan none bytes).map (·.getD '\uFFFD'))

end TaggedRows.Text.Utf8
