import UriTemplate.Proofs.Operator.Alphabet

/-!
Values that are cut. A length takes effect between two characters of a value: what is rendered is
the beginning of what the whole value renders to, without a part of an escape or of a character at
its end. A cut value is rendered as the value that is left of it, only that a path parameter keeps
its equals sign when nothing is left.
-/

namespace UriTemplate

namespace Operator

variable {op : Operator} {name value : Text}

/-- What stands in front of a value: with a named operator its name and an equals sign, and the name
alone in front of a path parameter that is empty. -/
def heading (op : Operator) (name value : Text) : Text :=
  if op = pathParameter ∧ value = [] then op.encode name
  else if op.isNamed then op.encode name ++ [.ofChar '=']
  else []

theorem renderScalar_nil (op : Operator) (maxLength : Option Int) :
    op.renderScalar [] maxLength = [] := by
  cases maxLength with
  | none => rfl
  | some length => simp [renderScalar, Text.cut, encode, Percent.encode]

theorem renderScalar_ofNat (op : Operator) (value : Text) (length : Nat) :
    op.renderScalar value (some (.ofNat length)) = op.encode (value.take length) := by
  simp only [renderScalar, Text.cut_ofNat]

theorem renderString_eq_heading (op : Operator) (name value : Text) (maxLength : Option Int) :
    op.renderString name value maxLength =
      op.heading name value ++ op.renderScalar value maxLength := by
  unfold renderString heading
  split
  · rename_i bare
    rw [bare.2, renderScalar_nil, List.append_nil]
  · split
    · rw [named, List.append_assoc]
      rfl
    · rfl

theorem heading_nil (name : Text) : pathParameter.heading name [] = pathParameter.encode name :=
  if_pos ⟨rfl, rfl⟩

theorem heading_of_ne_nil (some : value ≠ []) :
    pathParameter.heading name value = pathParameter.encode name ++ [.ofChar '='] := by
  rw [heading, if_neg fun bare => some bare.2]
  rfl

theorem render_scalar_eq_heading (op : Operator) (name value : Text) (explode : Bool)
    (maxLength : Option Int) :
    op.render name (some (.scalar value)) explode maxLength =
      some (op.heading name value ++ op.renderScalar value maxLength) := by
  rw [render, renderString_eq_heading]

theorem heading_take_eq_iff (length : Nat) :
    op.heading name (value.take length) = op.heading name value ↔
      ¬ (op = pathParameter ∧ length = 0 ∧ value ≠ []) := by
  by_cases parameter : op = pathParameter
  · subst op
    by_cases empty : value = []
    · simp [empty]
    · by_cases nothing : length = 0
      · rw [nothing, List.take_zero, heading_nil, heading_of_ne_nil empty]
        simp [empty]
      · have rest : value.take length ≠ [] := by simp [List.take_eq_nil_iff, nothing, empty]
        rw [heading_of_ne_nil rest, heading_of_ne_nil empty]
        simp [nothing]
  · simp [heading, parameter]

theorem Composes.heading {property : Text → Prop} (composes : op.Composes property)
    (name value : Text) : property (op.heading name value) := by
  unfold Operator.heading
  split
  · exact composes.encoded name
  · split
    · exact composes.append (composes.encoded name) composes.equalsSign
    · exact composes.empty

theorem exists_octets_heading (op : Operator) (name value : Text) :
    ∃ before, ∀ rest, Percent.octets (op.heading name value ++ rest) =
      Utf8.encode before ++ Percent.octets rest := by
  have octets (rest : Text) : Percent.octets (op.encode name ++ rest) =
      Utf8.encode name ++ Percent.octets rest :=
    Percent.octets_encode_append op.transparent_allowed name rest
  unfold heading
  split
  · exact ⟨name, octets⟩
  · split
    · refine ⟨name ++ [.ofChar '='], fun rest => ?_⟩
      have whole : Utf8.encode (name ++ [.ofChar '=']) = Utf8.encode name ++ [0x3d] :=
        List.flatMap_append
      rw [List.append_assoc, octets, List.singleton_append, Percent.octets_cons (by decide), whole,
        List.append_assoc]
      rfl
    · exact ⟨[], fun rest => rfl⟩

theorem encode_prefix_encode {s t : Text} (begins : s <+: t) : op.encode s <+: op.encode t := by
  obtain ⟨rest, rfl⟩ := begins
  rw [encode_append]
  exact List.prefix_append _ _

theorem encode_take_eq_iff {length : Nat} :
    op.encode (value.take length) = op.encode value ↔ value.length ≤ length := by
  constructor
  · intro same
    have size := congrArg List.length (encode_injective same)
    rw [List.length_take] at size
    omega
  · intro short
    rw [List.take_of_length_le short]

/-- The text is divided where neither an escape nor the octets of a character are divided: in front
of the cut is some text with so much of the value, and behind it the rest of the value. -/
structure CutCleanly (op : Operator) (value : Text) (length : Nat) (front rest : Text) : Prop where
  frontEscapes : op.Tidy front
  restEscapes : op.Tidy rest
  frontOctets : ∃ before, Percent.octets front = Utf8.encode (before ++ value.take length)
  restOctets : Percent.octets rest = Utf8.encode (value.drop length)

theorem cutCleanly (op : Operator) (name value : Text) (length : Nat) :
    op.CutCleanly value length (op.heading name value ++ op.encode (value.take length))
      (op.encode (value.drop length)) where
  frontEscapes := (op.composes_tidy.heading name value).append (op.tidy_encode _)
  restEscapes := op.tidy_encode _
  frontOctets := by
    obtain ⟨before, octets⟩ := op.exists_octets_heading name value
    refine ⟨before, ?_⟩
    have shown : Percent.octets (op.encode (value.take length)) = Utf8.encode (value.take length) :=
      Percent.octets_encode op.transparent_allowed _
    rw [octets, shown]
    exact List.flatMap_append.symm
  restOctets := Percent.octets_encode op.transparent_allowed _

/-- A longer prefix length shows more of the value, and all of it when it is not exceeded; what is
shown is rendered as a value of its own, unless it is nothing of a path parameter. The members of
lists and maps are not cut. -/
theorem render_cut (op : Operator) (name : Text) (explode : Bool) :
    (∀ (value : Text) (n m : Nat), n ≤ m → ∃ cut longer whole,
      op.render name (some (.scalar value)) explode (some (.ofNat n)) = some cut ∧
      op.render name (some (.scalar value)) explode (some (.ofNat m)) = some longer ∧
      op.render name (some (.scalar value)) explode none = some whole ∧
      cut <+: longer ∧ longer <+: whole ∧ (cut = whole ↔ value.length ≤ n) ∧
      (op.render name (some (.scalar (value.take n))) explode none = some cut ↔
        ¬ (op = pathParameter ∧ n = 0 ∧ value ≠ [])) ∧
      (op = pathParameter ∧ n = 0 ∧ value ≠ [] → cut = op.encode name ++ [.ofChar '='] ∧
        op.render name (some (.scalar (value.take n))) explode none = some (op.encode name)) ∧
      ∃ rest, whole = cut ++ rest ∧ op.CutCleanly value n cut rest) ∧
    ∀ (items : List Text) (pairs : List (Text × Text)) (maxLength : Option Int),
      op.render name (some (.list items)) explode maxLength =
          op.render name (some (.list items)) explode none ∧
        op.render name (some (.map pairs)) explode maxLength =
          op.render name (some (.map pairs)) explode none := by
  refine ⟨?_, fun items pairs maxLength => ⟨rfl, rfl⟩⟩
  intro value n m shorter
  simp only [render_scalar_eq_heading, renderScalar_ofNat]
  refine ⟨_, _, _, rfl, rfl, rfl, ?_, ?_, ?_, ?_, ?_, _, ?_, op.cutCleanly name value n⟩
  · rw [List.prefix_append_right_inj]
    exact encode_prefix_encode (List.take_prefix_take_left shorter)
  · rw [List.prefix_append_right_inj]
    exact encode_prefix_encode (List.take_prefix m value)
  · rw [renderScalar, List.append_cancel_left_eq, encode_take_eq_iff]
  · rw [renderScalar, Option.some.injEq, List.append_left_inj, heading_take_eq_iff]
  · rintro ⟨rfl, rfl, some⟩
    rw [List.take_zero, heading_of_ne_nil some, heading_nil, renderScalar_nil]
    exact ⟨List.append_nil _, congrArg Option.some (List.append_nil _)⟩
  · rw [renderScalar, List.append_assoc, ← encode_append, List.take_append_drop]

theorem render_cut_octets :
    (∃ rest, ("k=%C3%A9%2Fx" : Text) = "k=%C3%A9" ++ rest ∧
      query.CutCleanly "é/x" 1 "k=%C3%A9" rest) ∧
    ("k=%C3%A9" : Text) <+: "k=%C3%A9%2F" ∧
    pathParameter.render "k" (some (.scalar "é")) true (some (.ofNat 0)) = some "k=" ∧
      pathParameter.render "k" (some (.scalar "")) true none = some "k" := by
  obtain ⟨cut, longer, whole, short, further, full, begins, _, _, _, _, divided⟩ :=
    (render_cut .query "k" false).1 "é/x" 1 2 (by decide)
  obtain rfl : cut = "k=%C3%A9" := Option.some.inj (short.symm.trans (by decide))
  obtain rfl : longer = "k=%C3%A9%2F" := Option.some.inj (further.symm.trans (by decide))
  obtain rfl : whole = "k=%C3%A9%2Fx" := Option.some.inj (full.symm.trans (by decide))
  obtain ⟨bare, _, _, none, _, _, _, _, _, _, named, _⟩ :=
    (render_cut .pathParameter "k" true).1 "é" 0 0 (Nat.le_refl 0)
  obtain ⟨rfl, empty⟩ := named (by decide)
  exact ⟨divided, begins, none, empty⟩

end Operator

end UriTemplate
