import UriTemplate.Proofs.Expression.Printing
import UriTemplate.Text.Percent

/-!
The expressions of the standard's grammar. Names are made of letters, digits, underscores and inner
dots, and a variable has at most one modifier. Every such body is read as the variables it lists.
-/

namespace UriTemplate.Standard

def IsNameCharacter (c : CodePoint) : Prop :=
  c.isLetter = true ∨ c.isDigit = true ∨ c = .ofChar '_'

instance : DecidablePred IsNameCharacter := fun _ => inferInstanceAs (Decidable (_ ∨ _ ∨ _))

/-- Runs of letters, digits and underscores, with single dots between them. -/
def IsVarname (name : Text) : Prop :=
  ∀ part ∈ Text.splitOn '.' name, part ≠ [] ∧ ∀ c ∈ part, IsNameCharacter c

instance : DecidablePred IsVarname := fun _ => inferInstanceAs (Decidable (∀ _ ∈ _, _ ∧ _))

namespace IsVarname

variable {name : Text}

theorem character (varname : IsVarname name) {c : CodePoint} (member : c ∈ name) :
    IsNameCharacter c ∨ c = .ofChar '.' := by
  rw [← Text.joined_splitOn (.ofChar '.') name] at member
  rcases Text.mem_intercalate member with dot | ⟨part, listed, inPart⟩
  · exact Or.inr (List.mem_singleton.mp dot)
  · exact Or.inl ((varname part listed).2 c inPart)

theorem exists_cons (varname : IsVarname name) :
    ∃ c rest, name = c :: rest ∧ IsNameCharacter c := by
  cases name with
  | nil => exact absurd rfl (varname [] (List.mem_singleton_self [])).1
  | cons c rest =>
      refine ⟨c, rest, rfl, (varname.character List.mem_cons_self).resolve_right ?_⟩
      rintro rfl
      have first : [] ∈ Text.splitOn (.ofChar '.') (.ofChar '.' :: rest) := by
        rw [Text.splitOn, if_pos rfl]
        exact List.mem_cons_self
      exact absurd rfl (varname [] first).1

theorem unreserved (varname : IsVarname name) : ∀ c ∈ name, Percent.isUnreserved c = true := by
  intro c member
  rcases varname.character member with (letter | digit | rfl) | rfl
  · simp [Percent.isUnreserved, letter]
  · simp [Percent.isUnreserved, digit]
  · decide
  · decide

theorem not_mem (varname : IsVarname name) {c : CodePoint}
    (reserved : Percent.isUnreserved c = false) : c ∉ name := by
  intro member
  exact Bool.false_ne_true (reserved.symm.trans (varname.unreserved c member))

end IsVarname

/-- The variable lists of the standard's grammar: no variable has both modifiers, and a length is
positive and below 10000. -/
structure Grammatical (varspecs : List Varspec) : Prop where
  nonempty : varspecs ≠ []
  names : ∀ v ∈ varspecs, IsVarname v.name
  modifiers : ∀ v ∈ varspecs, v.explode = true → v.maxLength = none
  lengths : ∀ v ∈ varspecs, ∀ length ∈ v.maxLength, 1 ≤ length ∧ length < 10000

theorem ofMarker?_of_isNameCharacter {c : CodePoint} (character : IsNameCharacter c) :
    Operator.ofMarker? c = none := by
  cases found : Operator.ofMarker? c with
  | none => rfl
  | some op =>
      have marks := Operator.marker?_of_ofMarker? found
      have outside : ∀ marker ∈ op.marker?, marker.isLetter = false ∧ marker.isDigit = false ∧
          marker ≠ .ofChar '_' := by
        cases op <;> decide
      obtain ⟨noLetter, noDigit, noUnderscore⟩ := outside c marks
      rcases character with letter | digit | underscore
      · exact Bool.noConfusion (noLetter.symm.trans letter)
      · exact Bool.noConfusion (noDigit.symm.trans digit)
      · exact absurd underscore noUnderscore

namespace Grammatical

variable {varspecs : List Varspec}

theorem printable (grammatical : Grammatical varspecs) : ∀ v ∈ varspecs, v.Printable := by
  intro v listed
  have varname := grammatical.names v listed
  refine ⟨varname.not_mem (by decide), varname.not_mem (by decide), ?_, ?_⟩
  · intro _ _ starred
    exact varname.not_mem (by decide) (List.mem_of_getLast? starred)
  · intro length given
    have bound : length < 10 ^ 4 := (grammatical.lengths v listed length given).2
    have few : (Nat.toDigits 10 length).length ≤ 4 :=
      (Nat.length_toDigits_le_iff (by decide) (by decide)).mpr bound
    rw [Decimal.digits, List.length_map]
    exact Nat.le_trans few (by decide)

theorem ofBody_bodyOf (grammatical : Grammatical varspecs) (op : Operator) :
    Expression.ofBody (Expression.bodyOf op varspecs) =
      .ok ⟨Expression.bodyOf op varspecs, op, varspecs⟩ := by
  apply Expression.ofBody_bodyOf grammatical.nonempty grammatical.printable
  intro _ c first
  obtain ⟨v, others, rfl⟩ := List.exists_cons_of_ne_nil grammatical.nonempty
  obtain ⟨d, rest, name, character⟩ := (grammatical.names v List.mem_cons_self).exists_cons
  have begins : (Expression.bodyOf .simple (v :: others)).head? = some d := by
    unfold Expression.bodyOf
    rw [List.map_cons, Text.joined_cons_eq_flatMap, Varspec.toText_eq, name]
    rfl
  rw [begins] at first
  rw [← Option.some.inj first]
  exact ofMarker?_of_isNameCharacter character

end Grammatical

end UriTemplate.Standard
