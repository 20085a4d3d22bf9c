import UriTemplate.Text.Hex

/-!
The syntax of strings in JSON: what is written between the quotation marks, and which text it
stands for. A character has several spellings; this says which they are and not how one is chosen.
-/

namespace UriTemplate.Json

def letters : List (CodePoint × CodePoint) :=
  [('"', '"'), ('\\', '\\'), ('/', '/'), ('b', .ofNat 0x08), ('f', .ofNat 0x0c), ('n', '\n'),
    ('r', '\r'), ('t', '\t')]

def IsUnit (digits : Text) (n : Nat) : Prop := digits.length = 4 ∧ Hex.number? digits = some n

/-- The spellings of one character: the character itself, a letter behind a backslash, the number of
the character, or the numbers of two surrogates. -/
inductive Spelling : Text → CodePoint → Prop
  | plain {c : CodePoint} : 0x20 ≤ c.value → c ≠ .ofChar '"' → c ≠ .ofChar '\\' → Spelling [c] c
  | letter {mark c : CodePoint} : (mark, c) ∈ letters → Spelling [.ofChar '\\', mark] c
  | number {digits : Text} {n : Nat} : IsUnit digits n → n < 0xd800 ∨ 0xdfff < n →
    Spelling (.ofChar '\\' :: .ofChar 'u' :: digits) (.ofNat n)
  | pair {first second : Text} {high low : Nat} : IsUnit first high → IsUnit second low →
    0xd800 ≤ high → high < 0xdc00 → 0xdc00 ≤ low → low ≤ 0xdfff →
    Spelling (.ofChar '\\' :: .ofChar 'u' :: (first ++ .ofChar '\\' :: .ofChar 'u' :: second))
      (.ofNat (0x10000 + (high - 0xd800) * 0x400 + (low - 0xdc00)))

inductive Spells : Text → Text → Prop
  | nil : Spells [] []
  | cons {written rest t : Text} {c : CodePoint} : Spelling written c → Spells rest t →
    Spells (written ++ rest) (c :: t)

/-- A document that is the string `t` and nothing else. -/
def IsString (document t : Text) : Prop :=
  ∃ written, Spells written t ∧ document = .ofChar '"' :: (written ++ [.ofChar '"'])

end UriTemplate.Json
