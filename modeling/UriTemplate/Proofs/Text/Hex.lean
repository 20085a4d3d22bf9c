import Mathlib.Algebra.Group.Nat.Defs
import UriTemplate.Text.Hex

/-!
Hexadecimal digits are read as what they were written for, and a number as itself when it is
written with digits enough.
-/

namespace UriTemplate.Hex

theorem value?_lowerDigit : ∀ n < 16, value? (lowerDigit n) = some n := by
  decide

theorem length_lower (width n : Nat) : (lower width n).length = width := by
  induction width generalizing n with
  | zero => rfl
  | succ width ih => rw [lower, List.length_append, ih, List.length_singleton]

theorem exists_of_mem_lower {width n : Nat} {c : CodePoint} (member : c ∈ lower width n) :
    ∃ m < 16, c = lowerDigit m := by
  induction width generalizing n with
  | zero => exact absurd member List.not_mem_nil
  | succ width ih =>
      rw [lower, List.mem_append] at member
      rcases member with earlier | last
      · exact ih earlier
      · exact ⟨n % 16, by omega, List.mem_singleton.mp last⟩

theorem isSurrogate_of_value? {c : CodePoint} {n : Nat} (digit : value? c = some n) :
    c.isSurrogate = false := by
  rw [CodePoint.isSurrogate_eq_false_iff]
  unfold value? at digit
  split at digit
  · omega
  · split at digit
    · omega
    · split at digit
      · omega
      · exact absurd digit (by simp)

theorem exists_value?_of_number? {digits : Text} {n : Nat} (number : number? digits = some n)
    {c : CodePoint} (member : c ∈ digits) : ∃ digit, value? c = some digit := by
  rw [number?] at number
  generalize 0 = begun at number
  induction digits generalizing begun with
  | nil => exact absurd member List.not_mem_nil
  | cons first digits ih =>
      rw [List.foldlM_cons] at number
      obtain ⟨_, head, tail⟩ := Option.bind_eq_some_iff.mp number
      obtain ⟨digit, value, _⟩ := Option.map_eq_some_iff.mp head
      rcases List.mem_cons.mp member with rfl | later
      · exact ⟨digit, value⟩
      · exact ih later _ tail

theorem hasSurrogate_of_number? {digits : Text} {n : Nat} (number : number? digits = some n) :
    digits.hasSurrogate = false := by
  rw [Text.hasSurrogate_eq_false_iff]
  intro c member
  obtain ⟨digit, value⟩ := exists_value?_of_number? number member
  exact isSurrogate_of_value? value

theorem number?_lower (width n : Nat) : number? (lower width n) = some (n % 16 ^ width) := by
  induction width generalizing n with
  | zero => rw [Nat.pow_zero, Nat.mod_one]; rfl
  | succ width ih =>
      have whole : n / 16 % 16 ^ width * 16 + n % 16 = n % 16 ^ (width + 1) := by
        rw [Nat.pow_succ', Nat.mod_mul]
        omega
      have earlier := ih (n / 16)
      rw [number?] at earlier
      rw [number?, lower, List.foldlM_append, earlier]
      simp [value?_lowerDigit _ (show n % 16 < 16 by omega), whole]

theorem number?_lower_of_lt {width n : Nat} (enough : n < 16 ^ width) :
    number? (lower width n) = some n := by
  rw [number?_lower, Nat.mod_eq_of_lt enough]

end UriTemplate.Hex
