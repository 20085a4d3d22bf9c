/-!
Code points and texts. A text is a sequence of code points in which a lone surrogate is an ordinary
member, so every sequence of code points is a text and two of them are never fused into one.
-/

namespace UriTemplate

/-- A code point, surrogates included. -/
structure CodePoint where
  value : Nat
  value_lt : value < 0x110000
deriving DecidableEq

abbrev Text := List CodePoint

theorem char_toNat_lt (char : Char) : char.toNat < 0x110000 := by
  have valid : char.toNat < 0xd800 ∨ 0xdfff < char.toNat ∧ char.toNat < 0x110000 := char.valid
  omega

namespace CodePoint

def ofChar (char : Char) : CodePoint := ⟨char.toNat, char_toNat_lt char⟩

instance : Coe Char CodePoint := ⟨ofChar⟩

def replacement : CodePoint := ⟨0xfffd, by decide⟩

/-- The code point of that number, `replacement` when there is none. -/
def ofNat (number : Nat) : CodePoint :=
  if small : number < 0x110000 then ⟨number, small⟩ else replacement

def isSurrogate (c : CodePoint) : Bool := 0xd800 ≤ c.value && c.value ≤ 0xdfff

def isAscii (c : CodePoint) : Bool := c.value < 0x80

def isDigit (c : CodePoint) : Bool := 0x30 ≤ c.value && c.value ≤ 0x39

def isLetter (c : CodePoint) : Bool :=
  (0x41 ≤ c.value && c.value ≤ 0x5a) || (0x61 ≤ c.value && c.value ≤ 0x7a)

def toChar? (c : CodePoint) : Option Char :=
  if c.isSurrogate then none else some (Char.ofNat c.value)

theorem ofNat_value (c : CodePoint) : ofNat c.value = c := by
  simp [ofNat, c.value_lt]

theorem value_ofNat {n : Nat} (small : n < 0x110000) : (ofNat n).value = n := by
  rw [ofNat, dif_pos small]

theorem isSurrogate_eq_false_iff {c : CodePoint} :
    c.isSurrogate = false ↔ c.value < 0xd800 ∨ 0xdfff < c.value := by
  simp only [isSurrogate, Bool.and_eq_false_iff, decide_eq_false_iff_not]
  omega

end CodePoint

namespace Text

def ofString (s : String) : Text := s.toList.map CodePoint.ofChar

instance : Coe String Text := ⟨ofString⟩

def toString? (t : Text) : Option String := (t.mapM CodePoint.toChar?).map String.ofList

def hasSurrogate (t : Text) : Bool := t.any CodePoint.isSurrogate

theorem hasSurrogate_eq_false_iff {t : Text} :
    t.hasSurrogate = false ↔ ∀ c ∈ t, c.isSurrogate = false := by
  simp [hasSurrogate]

theorem hasSurrogate_cons_eq_false_iff {c : CodePoint} {t : Text} :
    hasSurrogate (c :: t) = false ↔ c.isSurrogate = false ∧ t.hasSurrogate = false :=
  Bool.or_eq_false_iff

theorem hasSurrogate_append_eq_false_iff {t u : Text} :
    hasSurrogate (t ++ u) = false ↔ t.hasSurrogate = false ∧ u.hasSurrogate = false := by
  rw [hasSurrogate, List.any_append, Bool.or_eq_false_iff]
  rfl

def joined (separator : Text) (pieces : List Text) : Text := separator.intercalate pieces

/-- What follows `head` in the text, when the text begins with it. -/
def after? : Text → Text → Option Text
  | [], t => some t
  | _ :: _, [] => none
  | h :: head, c :: t => if h = c then after? head t else none

/-- The pieces between the occurrences of a separator: one more than it occurs. -/
def splitOn (separator : CodePoint) : Text → List Text
  | [] => [[]]
  | c :: rest =>
    if c = separator then [] :: splitOn separator rest
    else match splitOn separator rest with
      | piece :: pieces => (c :: piece) :: pieces
      | [] => [[c]]

/-- A text longer than `length` is cut to that many code points; a negative length drops as many
from the end. -/
def cut (length : Int) (t : Text) : Text :=
  if 0 ≤ length then t.take length.toNat else t.take (t.length - length.natAbs)

theorem eq_append_of_after? {head t rest : Text} (found : after? head t = some rest) :
    t = head ++ rest := by
  fun_induction after? head t with
  | case1 => simpa using found
  | case2 => simp at found
  | case3 head c t ih => simp [ih found]
  | case4 => simp at found

theorem after?_append (head rest : Text) : after? head (head ++ rest) = some rest := by
  induction head with
  | nil => rfl
  | cons h head ih => simp [after?, ih]

end Text

end UriTemplate
