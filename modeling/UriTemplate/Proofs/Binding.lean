import UriTemplate.Expression.Basic
import UriTemplate.Operator.Rendering

/-!
The texts that a binding consists of, and the part of a scalar that a variable shows.
-/

namespace UriTemplate

def Binding.texts : Binding → List Text
  | .scalar value => [value]
  | .list items => items
  | .map pairs => pairs.flatMap fun pair => [pair.1, pair.2]

theorem Binding.mem_texts_map {pairs : List (Text × Text)} {pair : Text × Text}
    (member : pair ∈ pairs) :
    pair.1 ∈ (Binding.map pairs).texts ∧ pair.2 ∈ (Binding.map pairs).texts :=
  ⟨List.mem_flatMap.mpr ⟨pair, member, by simp⟩, List.mem_flatMap.mpr ⟨pair, member, by simp⟩⟩

theorem Binding.flatMap_pair_ne_nil {pairs : List (Text × Text)} (members : pairs ≠ []) :
    (pairs.flatMap fun pair => [pair.1, pair.2]) ≠ [] := by
  simpa [List.flatMap_eq_nil_iff] using List.exists_mem_of_ne_nil pairs members

theorem Text.cut_ofNat (length : Nat) (t : Text) : t.cut (Int.ofNat length) = t.take length := by
  rw [cut, if_pos (show (0 : Int) ≤ Int.ofNat length from Int.natCast_nonneg length)]
  rfl

namespace Varspec

variable (v : Varspec)

def shown (value : Text) : Text :=
  match v.maxLength with
  | some length => value.take length
  | none => value

theorem renderScalar_eq (op : Operator) (value : Text) :
    op.renderScalar value (v.maxLength.map Int.ofNat) = op.encode (v.shown value) := by
  cases length : v.maxLength with
  | none => simp [Operator.renderScalar, shown, length]
  | some length => simp only [Operator.renderScalar, shown, length, Option.map_some, Text.cut_ofNat]

theorem shown_append (value : Text) : ∃ rest, value = v.shown value ++ rest := by
  unfold shown
  split
  · rename_i length _
    exact ⟨value.drop length, (List.take_append_drop length value).symm⟩
  · exact ⟨[], (List.append_nil value).symm⟩

variable {v} in
theorem hasSurrogate_shown {value : Text} (scalars : value.hasSurrogate = false) :
    (v.shown value).hasSurrogate = false := by
  obtain ⟨rest, whole⟩ := v.shown_append value
  rw [whole, Text.hasSurrogate_append_eq_false_iff] at scalars
  exact scalars.1

theorem shown_nil : v.shown [] = [] := by
  unfold shown
  split <;> simp

end Varspec

end UriTemplate
