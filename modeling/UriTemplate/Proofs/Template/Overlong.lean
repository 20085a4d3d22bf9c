import UriTemplate.Proofs.Expression.Reading
import UriTemplate.Proofs.Template.Canonical
import UriTemplate.Proofs.Text.Joined

/-!
Which templates cannot be read. Only a length of too many digits is refused, and a length is nothing
but the digits behind the first colon of a variable, up to a star that may stand at the end.
-/

namespace UriTemplate

def Fault.IsLongNumeral (fault : Fault) : Prop :=
  ∃ digits, Decimal.maxDigits < digits ∧ fault = .longNumeral digits

namespace Varspec

/-- Too many digits, and nothing else, stand between the first colon and the end or the star there. -/
def Overlong (t : Text) : Prop :=
  ∃ name digits star, t = name ++ .ofChar ':' :: (digits ++ star) ∧ .ofChar ':' ∉ name ∧
    (∀ c ∈ digits, c.isDigit = true) ∧ Decimal.maxDigits < digits.length ∧
    (star = [] ∨ star = [.ofChar '*'])

def LongModifier (modifier : Text) : Prop :=
  (∀ c ∈ modifier, c.isDigit = true) ∧ Decimal.maxDigits < modifier.length

theorem failsIff_maxLengthOf (modifier : Text) :
    FailsIff Fault.IsLongNumeral (LongModifier modifier) (maxLengthOf modifier) := by
  unfold maxLengthOf Decimal.read
  split
  · rename_i numeral
    split
    · rename_i short
      exact FailsIff.ok fun long => absurd long.2 (by omega)
    · rename_i long
      have digits : ∀ c ∈ modifier, c.isDigit = true := by
        simp only [Decimal.isNumeral, Bool.and_eq_true, List.all_eq_true] at numeral
        exact numeral.2
      refine FailsIff.error ⟨digits, by omega⟩ ⟨modifier.length, by omega, rfl⟩
  · rename_i other
    refine FailsIff.ok fun long => other ?_
    have nonempty : modifier.isEmpty = false := by
      rw [List.isEmpty_eq_false_iff, ← List.length_pos_iff]
      exact Nat.zero_lt_of_lt long.2
    simpa [Decimal.isNumeral, nonempty] using long.1

theorem overlong_iff {t : Text} :
    Overlong t ↔ ∃ colon modifier,
      (unstarred t).dropWhile (· ≠ CodePoint.ofChar ':') = colon :: modifier ∧
        LongModifier modifier := by
  constructor
  · rintro ⟨name, digits, star, rfl, outside, allDigits, long, known⟩
    have several : digits ≠ [] := List.ne_nil_of_length_pos (Nat.zero_lt_of_lt long)
    have last := getLast?_length_ne_star name several allDigits
    have before := Text.other_of_not_mem outside
    refine ⟨.ofChar ':', digits, ?_, allDigits, long⟩
    rw [← List.cons_append, ← List.append_assoc, unstarred_append last known,
      List.dropWhile_append_of_pos before, List.dropWhile_cons_of_neg (by simp)]
  · rintro ⟨colon, modifier, behind, allDigits, long⟩
    obtain ⟨star, whole, known⟩ := exists_star t
    have isColon : colon = .ofChar ':' := by
      have stops := List.head?_dropWhile_not (fun c => decide (c ≠ CodePoint.ofChar ':')) (unstarred t)
      rw [behind] at stops
      simpa using stops
    refine ⟨(unstarred t).takeWhile (· ≠ CodePoint.ofChar ':'), modifier, star, ?_, ?_, allDigits,
      long, known⟩
    · rw [isColon] at behind
      rw [← List.cons_append, ← List.append_assoc, ← behind, List.takeWhile_append_dropWhile,
        ← whole]
    · intro member
      simpa using List.mem_takeWhile_imp member

theorem failsIff_ofText (t : Text) : FailsIff Fault.IsLongNumeral (Overlong t) (ofText t) := by
  rw [ofText_eq]
  split
  · rename_i nothing
    refine FailsIff.ok fun long => ?_
    obtain ⟨_, _, behind, _⟩ := overlong_iff.mp long
    rw [nothing] at behind
    simp at behind
  · rename_i colon modifier behind
    refine ((failsIff_maxLengthOf modifier).map _).congr ?_
    rw [overlong_iff, behind]
    simp

end Varspec

def Expression.Overlong (body : Text) : Prop :=
  ∃ piece ∈ Text.splitOn ',' (operatorAndList body).2, Varspec.Overlong piece

theorem Expression.failsIff_ofBody (body : Text) :
    FailsIff Fault.IsLongNumeral (Overlong body) (ofBody body) := by
  rw [ofBody_eq]
  exact (FailsIff.mapM Varspec.failsIff_ofText _).map _

def Template.Overlong (t : Template) : Prop := ∃ body ∈ t.bodies, Expression.Overlong body

namespace Segment

def Overlong (segment : Segment Text) : Prop :=
  ∃ body, segment.expression? = some body ∧ Expression.Overlong body

theorem failsIff_read (segment : Segment Text) :
    FailsIff Fault.IsLongNumeral segment.Overlong segment.read := by
  cases segment with
  | literal run => exact FailsIff.ok (by simp [Overlong, expression?])
  | expression body =>
      refine ((Expression.failsIff_ofBody body).map Segment.expression).congr ?_
      simp [Overlong, expression?]

end Segment

theorem Template.failsIff_segments (t : Template) :
    FailsIff Fault.IsLongNumeral t.Overlong t.segments := by
  refine (FailsIff.mapM Segment.failsIff_read (Segment.bodies t.text)).congr ?_
  simp only [Overlong, Segment.Overlong, bodies, List.mem_filterMap]
  constructor
  · rintro ⟨segment, member, body, isBody, long⟩
    exact ⟨body, ⟨segment, member, isBody⟩, long⟩
  · rintro ⟨body, ⟨segment, member, isBody⟩, long⟩
    exact ⟨segment, member, body, isBody, long⟩

end UriTemplate
