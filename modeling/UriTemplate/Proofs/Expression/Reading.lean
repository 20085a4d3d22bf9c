import Mathlib.Data.List.Basic
import Mathlib.Data.List.TakeWhile
import UriTemplate.Expression.Basic
import UriTemplate.Proofs.Fault
import UriTemplate.Proofs.Text.Joined

/-!
How the parts of a body are read: a variable after the star at its end is dropped, and a body as the
list of its variables. A body has one variable more than it has commas, and no name that is read has
a comma or a colon.
-/

namespace UriTemplate

namespace Varspec

def unstarred (t : Text) : Text := if t.getLast? = some (.ofChar '*') then t.dropLast else t

theorem exists_star (t : Text) :
    ∃ star, t = unstarred t ++ star ∧ (star = [] ∨ star = [.ofChar '*']) := by
  unfold unstarred
  split
  · rename_i starred
    obtain ⟨rest, rfl⟩ := List.getLast?_eq_some_iff.mp starred
    exact ⟨[.ofChar '*'], by rw [List.dropLast_concat], Or.inr rfl⟩
  · exact ⟨[], (List.append_nil t).symm, Or.inl rfl⟩

theorem unstarred_concat (t : Text) : unstarred (t ++ [.ofChar '*']) = t := by
  rw [unstarred, if_pos List.getLast?_concat, List.dropLast_concat]

theorem unstarred_append {t star : Text} (noStar : t.getLast? ≠ some (.ofChar '*'))
    (known : star = [] ∨ star = [.ofChar '*']) : unstarred (t ++ star) = t := by
  rcases known with rfl | rfl
  · rw [List.append_nil, unstarred, if_neg noStar]
  · exact unstarred_concat t

theorem getLast?_length_ne_star (name : Text) {digits : Text} (nonempty : digits ≠ [])
    (each : ∀ c ∈ digits, c.isDigit = true) :
    (name ++ .ofChar ':' :: digits).getLast? ≠ some (.ofChar '*') := by
  intro starred
  have member : .ofChar '*' ∈ digits := by
    obtain ⟨digit, digits, rfl⟩ := List.exists_cons_of_ne_nil nonempty
    rw [List.getLast?_append_cons, List.getLast?_cons_cons] at starred
    exact List.mem_of_getLast? starred
  exact absurd (each _ member) (by decide)

theorem ofText_eq (t : Text) :
    ofText t = match (unstarred t).dropWhile (· ≠ CodePoint.ofChar ':') with
      | [] => .ok ⟨(unstarred t).takeWhile (· ≠ CodePoint.ofChar ':'),
          t.getLast? = some (.ofChar '*'), none⟩
      | _ :: modifier => (maxLengthOf modifier).map fun maxLength =>
        ⟨(unstarred t).takeWhile (· ≠ CodePoint.ofChar ':'), t.getLast? = some (.ofChar '*'),
          maxLength⟩ := by
  simp only [ofText, unstarred, decide_eq_true_eq]
  rfl

variable {t : Text} {v : Varspec}

theorem name_of_ofText (made : ofText t = .ok v) :
    v.name = (unstarred t).takeWhile (· ≠ CodePoint.ofChar ':') := by
  rw [ofText_eq] at made
  split at made
  · rw [← Except.ok.inj made]
  · rename_i modifier _
    cases read : maxLengthOf modifier with
    | error fault => simp [read, Except.map] at made
    | ok maxLength =>
        rw [read] at made
        rw [← Except.ok.inj made]

theorem mem_of_mem_name (made : ofText t = .ok v) {c : CodePoint} (member : c ∈ v.name) :
    c ∈ t ∧ c ≠ .ofChar ':' := by
  rw [name_of_ofText made] at member
  obtain ⟨star, whole, _⟩ := exists_star t
  refine ⟨?_, ?_⟩
  · rw [whole]
    exact List.mem_append_left star ((List.takeWhile_sublist _).mem member)
  · simpa using List.mem_takeWhile_imp member

end Varspec

namespace Expression

theorem ofBody_eq (body : Text) :
    ofBody body = ((Text.splitOn ',' (operatorAndList body).2).mapM Varspec.ofText).map
      fun varspecs => ⟨body, (operatorAndList body).1, varspecs⟩ := by
  unfold ofBody
  rcases operatorAndList body with ⟨operator, list⟩
  change ((Text.splitOn ',' list).mapM Varspec.ofText >>= _) = _
  cases (Text.splitOn ',' list).mapM Varspec.ofText <;> rfl

theorem ofBody_eq_ok_iff {body : Text} {e : Expression} :
    ofBody body = .ok e ↔ e.body = body ∧ e.operator = (operatorAndList body).1 ∧
      (Text.splitOn ',' (operatorAndList body).2).mapM Varspec.ofText = .ok e.varspecs := by
  rw [ofBody_eq]
  cases (Text.splitOn ',' (operatorAndList body).2).mapM Varspec.ofText with
  | error fault => simp [Except.map]
  | ok varspecs =>
      obtain ⟨_, _, _⟩ := e
      simp only [Except.map, Except.ok.injEq, mk.injEq, eq_comm]

theorem marker_append_list (body : Text) :
    (operatorAndList body).1.marker?.toList ++ (operatorAndList body).2 = body := by
  cases body with
  | nil => rfl
  | cons c rest =>
      rw [operatorAndList]
      split
      · rename_i op found
        rw [Operator.marker?_of_ofMarker? found]
        rfl
      · rfl

theorem count_comma_list (body : Text) :
    (operatorAndList body).2.count (.ofChar ',') = body.count (.ofChar ',') := by
  have noComma (op : Operator) : op.marker?.toList.count (.ofChar ',') = 0 := by
    cases op <;> decide
  have whole := congrArg (List.count (.ofChar ',')) (marker_append_list body)
  rwa [List.count_append, noComma, Nat.zero_add] at whole

theorem length_varspecs {body : Text} {e : Expression} (made : ofBody body = .ok e) :
    e.varspecs.length = body.count (.ofChar ',') + 1 := by
  have each := mapM_eq_ok_iff.mp (ofBody_eq_ok_iff.mp made).2.2
  rw [← each.length_eq, Text.length_splitOn, count_comma_list]

theorem delimiters_not_mem_name {body : Text} {e : Expression} (made : ofBody body = .ok e) :
    ∀ v ∈ e.varspecs, .ofChar ',' ∉ v.name ∧ .ofChar ':' ∉ v.name := by
  intro v listed
  obtain ⟨piece, member, read⟩ := exists_of_mapM_eq_ok (ofBody_eq_ok_iff.mp made).2.2 listed
  constructor
  · intro comma
    exact Text.not_mem_of_mem_splitOn member (Varspec.mem_of_mem_name read comma).1
  · intro colon
    exact (Varspec.mem_of_mem_name read colon).2 rfl

end Expression

end UriTemplate
