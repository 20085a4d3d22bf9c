import UriTemplate.Proofs.Expression.Reading
import UriTemplate.Proofs.Fault
import UriTemplate.Proofs.Text.Joined

/-!
Reading undoes printing. A printed numeral, a printed variable and a printed body are read as what
was printed, as long as the names hold no delimiter and nothing printed is taken for a modifier or a
marker that is not there.
-/

namespace UriTemplate

namespace Decimal

theorem isDigit_of_mem_digits {n : Nat} {c : CodePoint} (member : c ∈ digits n) :
    c.isDigit = true := by
  obtain ⟨char, listed, rfl⟩ := List.mem_map.mp member
  have digit : char.isDigit = true :=
    Nat.isDigit_of_mem_toDigits (show 0 < 10 by decide) (Nat.le_refl 10) listed
  have bounds : 0x30 ≤ char.toNat ∧ char.toNat ≤ 0x39 := by
    simpa [Char.isDigit, UInt32.le_iff_toNat_le] using digit
  unfold CodePoint.isDigit
  rw [Bool.and_eq_true]
  exact ⟨decide_eq_true bounds.1, decide_eq_true bounds.2⟩

theorem digits_ne_nil (n : Nat) : digits n ≠ [] :=
  List.map_eq_nil_iff.not.mpr Nat.toDigits_ne_nil

theorem isNumeral_digits (n : Nat) : isNumeral (digits n) = true := by
  have each : (digits n).all CodePoint.isDigit = true :=
    List.all_eq_true.mpr fun c member => isDigit_of_mem_digits member
  simp [isNumeral, digits_ne_nil, each]

theorem value_digits (n : Nat) : value (digits n) = n := by
  have step : value (digits n) = Nat.ofDigitChars 10 (Nat.toDigits 10 n) 0 := by
    simp only [value, digits, List.foldl_map, Nat.ofDigitChars, CodePoint.ofChar, Nat.mul_comm]
    rfl
  rw [step, Nat.ofDigitChars_ten_toDigits]

theorem read_digits {n : Nat} (short : (digits n).length ≤ maxDigits) :
    read (digits n) = .ok n := by
  rw [read, if_pos short, value_digits]

end Decimal

namespace Varspec

/-- Written, the variable is read as itself: its name has no delimiter, no star at the end of the
name is taken for the modifier, and the length is not too long to be read. -/
structure Printable (v : Varspec) : Prop where
  noComma : .ofChar ',' ∉ v.name
  noColon : .ofChar ':' ∉ v.name
  noStar : v.explode = false → v.maxLength = none → v.name.getLast? ≠ some (.ofChar '*')
  short : ∀ length ∈ v.maxLength, (Decimal.digits length).length ≤ Decimal.maxDigits

def lengthText : Option Nat → Text
  | none => []
  | some length => .ofChar ':' :: Decimal.digits length

variable {v : Varspec}

theorem toText_eq (v : Varspec) :
    v.toText = v.name ++ lengthText v.maxLength ++ (if v.explode then [.ofChar '*'] else []) := by
  unfold toText lengthText
  cases v.maxLength <;> rfl

theorem getLast?_name_append (printable : v.Printable) (plain : v.explode = false) :
    (v.name ++ lengthText v.maxLength).getLast? ≠ some (.ofChar '*') := by
  cases given : v.maxLength with
  | none =>
      rw [lengthText, List.append_nil]
      exact printable.noStar plain given
  | some length =>
      have several := Decimal.digits_ne_nil length
      exact getLast?_length_ne_star v.name several fun c => Decimal.isDigit_of_mem_digits

theorem unstarred_toText (printable : v.Printable) :
    unstarred v.toText = v.name ++ lengthText v.maxLength ∧
      decide (v.toText.getLast? = some (.ofChar '*')) = v.explode := by
  rw [toText_eq]
  cases explode : v.explode with
  | true => exact ⟨unstarred_concat _, decide_eq_true List.getLast?_concat⟩
  | false =>
      have last := getLast?_name_append printable explode
      rw [if_neg Bool.false_ne_true]
      refine ⟨unstarred_append last (Or.inl rfl), ?_⟩
      rw [List.append_nil]
      exact decide_eq_false last

theorem ofText_toText (printable : v.Printable) : ofText v.toText = .ok v := by
  have before := Text.other_of_not_mem printable.noColon
  rw [ofText_eq, (unstarred_toText printable).1, (unstarred_toText printable).2]
  cases given : v.maxLength with
  | none =>
      have whole : v.name.takeWhile (· ≠ CodePoint.ofChar ':') = v.name :=
        List.takeWhile_eq_self_iff.mpr before
      have nothing : v.name.dropWhile (· ≠ CodePoint.ofChar ':') = [] :=
        List.dropWhile_eq_nil_iff.mpr before
      rw [lengthText, List.append_nil, whole, nothing, ← given]
  | some length =>
      have read : maxLengthOf (Decimal.digits length) = .ok (some length) := by
        rw [maxLengthOf, if_pos (Decimal.isNumeral_digits length),
          Decimal.read_digits (printable.short length given)]
        rfl
      rw [lengthText, List.takeWhile_append_of_pos before, List.dropWhile_append_of_pos before,
        List.takeWhile_cons_of_neg (by simp), List.dropWhile_cons_of_neg (by simp),
        List.append_nil]
      change (maxLengthOf (Decimal.digits length)).map _ = _
      rw [read, ← given]
      rfl

theorem not_mem_toText {c : CodePoint} (absent : c ∉ v.name) (noColon : c ≠ .ofChar ':')
    (noDigit : c.isDigit = false) (noStar : c ≠ .ofChar '*') : c ∉ v.toText := by
  have inLength : c ∉ lengthText v.maxLength := by
    cases v.maxLength with
    | none => exact List.not_mem_nil
    | some length =>
        intro member
        rcases List.mem_cons.mp member with colon | inDigits
        · exact noColon colon
        · rw [Decimal.isDigit_of_mem_digits inDigits] at noDigit
          exact absurd noDigit.symm Bool.false_ne_true
  have inStar : c ∉ (if v.explode then [.ofChar '*'] else [] : Text) := by
    split
    · rwa [List.mem_singleton]
    · exact List.not_mem_nil
  rw [toText_eq, List.mem_append, List.mem_append]
  rintro ((inName | member) | member)
  · exact absent inName
  · exact inLength member
  · exact inStar member

end Varspec

namespace Expression

variable {operator : Operator} {varspecs : List Varspec}

theorem operatorAndList_append {list : Text}
    (unmarked : operator = .simple → ∀ c ∈ list.head?, Operator.ofMarker? c = none) :
    operatorAndList (operator.marker?.toList ++ list) = (operator, list) := by
  cases marks : operator.marker? with
  | some c =>
      simp only [Option.toList_some, List.singleton_append, operatorAndList,
        Operator.ofMarker?_of_marker? marks]
  | none =>
      have simple : operator = .simple := by
        cases operator <;> first | rfl | exact absurd marks (Option.some_ne_none _)
      rw [Option.toList_none, List.nil_append, simple]
      cases list with
      | nil => rfl
      | cons c rest => simp only [operatorAndList, unmarked simple c rfl]

theorem ofBody_bodyOf (nonempty : varspecs ≠ []) (printable : ∀ v ∈ varspecs, v.Printable)
    (unmarked : operator = .simple →
      ∀ c ∈ (bodyOf .simple varspecs).head?, Operator.ofMarker? c = none) :
    ofBody (bodyOf operator varspecs) = .ok ⟨bodyOf operator varspecs, operator, varspecs⟩ := by
  have divided : Text.splitOn (.ofChar ',')
      (Text.joined [.ofChar ','] (varspecs.map Varspec.toText)) = varspecs.map Varspec.toText := by
    apply Text.splitOn_joined (List.map_eq_nil_iff.not.mpr nonempty)
    intro piece member
    obtain ⟨v, listed, rfl⟩ := List.mem_map.mp member
    exact Varspec.not_mem_toText (printable v listed).noComma (by decide) (by decide) (by decide)
  have each : (varspecs.map Varspec.toText).mapM Varspec.ofText = .ok varspecs := by
    rw [mapM_eq_ok_iff, List.forall₂_map_left_iff, List.forall₂_same]
    intro v listed
    exact Varspec.ofText_toText (printable v listed)
  have parts : operatorAndList (bodyOf operator varspecs) =
      (operator, Text.joined [.ofChar ','] (varspecs.map Varspec.toText)) :=
    operatorAndList_append unmarked
  rw [ofBody_eq, parts, divided, each]
  rfl

end Expression

end UriTemplate
