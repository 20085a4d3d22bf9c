import UriTemplate.Text.CodePoint

/-!
Texts joined by a separator, and divided at it again.
-/

namespace UriTemplate.Text

variable {separator : Text}

theorem joined_singleton (piece : Text) : joined separator [piece] = piece :=
  List.intercalate_singleton

theorem joined_cons {piece : Text} {pieces : List Text} (more : pieces ≠ []) :
    joined separator (piece :: pieces) = piece ++ separator ++ joined separator pieces := by
  obtain ⟨next, rest, rfl⟩ := List.exists_cons_of_ne_nil more
  exact List.intercalate_cons_cons

theorem joined_cons_eq_flatMap (piece : Text) (pieces : List Text) :
    joined separator (piece :: pieces) = piece ++ pieces.flatMap (separator ++ ·) := by
  induction pieces generalizing piece with
  | nil => rw [joined_singleton, List.flatMap_nil, List.append_nil]
  | cons next pieces ih =>
      rw [joined_cons (List.cons_ne_nil _ _), ih, List.flatMap_cons]
      simp only [List.append_assoc]

theorem joined_append {pieces others : List Text} (nonempty : pieces ≠ []) (more : others ≠ []) :
    joined separator (pieces ++ others) =
      joined separator pieces ++ separator ++ joined separator others := by
  induction pieces with
  | nil => exact absurd rfl nonempty
  | cons piece pieces ih =>
      rw [List.cons_append]
      by_cases last : pieces = []
      · rw [last, List.nil_append, joined_cons more, joined_singleton]
      · rw [joined_cons (List.append_ne_nil_of_right_ne_nil _ more), ih last, joined_cons last]
        simp only [List.append_assoc]

theorem joined_modifyHead {separator before : Text} {pieces : List Text} (nonempty : pieces ≠ []) :
    joined separator (pieces.modifyHead (before ++ ·)) = before ++ joined separator pieces := by
  obtain ⟨piece, others, rfl⟩ := List.exists_cons_of_ne_nil nonempty
  rw [List.modifyHead_cons, joined_cons_eq_flatMap, joined_cons_eq_flatMap, List.append_assoc]

theorem joined_ne_nil {pieces : List Text} (nonempty : pieces ≠ [])
    (each : ∀ piece ∈ pieces, piece ≠ []) : joined separator pieces ≠ [] := by
  obtain ⟨piece, others, rfl⟩ := List.exists_cons_of_ne_nil nonempty
  have first : piece ≠ [] := each piece List.mem_cons_self
  by_cases last : others = []
  · rwa [last, joined_singleton]
  · rw [joined_cons last, List.append_assoc]
    exact List.append_ne_nil_of_left_ne_nil first _

theorem joined_flatten {groups : List (List Text)} (nonempty : ∀ group ∈ groups, group ≠ []) :
    joined separator (groups.map (joined separator)) = joined separator groups.flatten := by
  induction groups with
  | nil => rfl
  | cons group groups ih =>
      rw [List.forall_mem_cons] at nonempty
      rw [List.map_cons, List.flatten_cons]
      cases groups with
      | nil => rw [List.map_nil, joined_singleton, List.flatten_nil, List.append_nil]
      | cons next groups =>
          have more : (next :: groups).flatten ≠ [] := by
            rw [List.flatten_cons]
            exact List.append_ne_nil_of_left_ne_nil (nonempty.2 next List.mem_cons_self) _
          rw [joined_cons (by simp), ih nonempty.2, joined_append nonempty.1 more]

theorem mem_joined_of_mem {piece : Text} {pieces : List Text}
    (member : piece ∈ pieces) {c : CodePoint} (inside : c ∈ piece) : c ∈ joined separator pieces := by
  induction pieces with
  | nil => exact absurd member List.not_mem_nil
  | cons first pieces ih =>
      rw [joined_cons_eq_flatMap, List.mem_append, List.mem_flatMap]
      rcases List.mem_cons.mp member with rfl | later
      · exact Or.inl inside
      · exact Or.inr ⟨piece, later, List.mem_append_right separator inside⟩

theorem mem_intercalate {α : Type} {between : List α} {pieces : List (List α)} {a : α}
    (member : a ∈ between.intercalate pieces) : a ∈ between ∨ ∃ piece ∈ pieces, a ∈ piece := by
  induction pieces with
  | nil => simp at member
  | cons piece pieces ih =>
      cases pieces with
      | nil =>
          rw [List.intercalate_singleton] at member
          exact Or.inr ⟨piece, by simp, member⟩
      | cons next pieces =>
          rw [List.intercalate_cons_cons, List.mem_append, List.mem_append] at member
          rcases member with (inPiece | inBetween) | later
          · exact Or.inr ⟨piece, by simp, inPiece⟩
          · exact Or.inl inBetween
          · rcases ih later with inBetween | ⟨other, belongs, inOther⟩
            · exact Or.inl inBetween
            · exact Or.inr ⟨other, List.mem_cons_of_mem _ belongs, inOther⟩

theorem splitOn_eq (c : CodePoint) (t : Text) : splitOn c t = List.splitOn c t := by
  induction t with
  | nil => rfl
  | cons d t ih =>
      obtain ⟨piece, pieces, shape⟩ := List.exists_cons_of_ne_nil (List.splitOn_ne_nil c t)
      rw [splitOn, List.splitOn_cons_eq_if_modifyHead, ih, shape]
      simp only [beq_iff_eq]
      rfl

theorem joined_splitOn (c : CodePoint) (t : Text) : joined [c] (splitOn c t) = t := by
  rw [splitOn_eq]
  exact List.intercalate_splitOn c

theorem splitOn_of_not_mem {c : CodePoint} {t : Text} (absent : c ∉ t) : splitOn c t = [t] := by
  rw [splitOn_eq, List.splitOn_eq_singleton absent]

theorem length_splitOn (c : CodePoint) (t : Text) : (splitOn c t).length = t.count c + 1 := by
  induction t with
  | nil => rfl
  | cons d t ih =>
      rw [splitOn, List.count_cons]
      by_cases separator : d = c
      · rw [if_pos separator, List.length_cons, ih, if_pos (beq_iff_eq.mpr separator)]
      · obtain ⟨piece, pieces, shape⟩ := List.exists_cons_of_length_eq_add_one ih
        rw [shape, List.length_cons] at ih
        rw [if_neg separator, shape, if_neg (mt beq_iff_eq.mp separator), List.length_cons, ih]

theorem not_mem_of_mem_splitOn {c : CodePoint} {piece t : Text} (member : piece ∈ splitOn c t) :
    c ∉ piece := by
  induction t generalizing piece with
  | nil =>
      rw [List.mem_singleton.mp member]
      exact List.not_mem_nil
  | cons d t ih =>
      rw [splitOn] at member
      split at member
      · rcases List.mem_cons.mp member with rfl | later
        · exact List.not_mem_nil
        · exact ih later
      · rename_i other
        split at member
        · rename_i first pieces shape
          rcases List.mem_cons.mp member with rfl | later
          · rw [List.mem_cons, not_or]
            exact ⟨Ne.symm other, ih (shape ▸ List.mem_cons_self)⟩
          · exact ih (shape ▸ List.mem_cons_of_mem first later)
        · rw [List.mem_singleton.mp member, List.mem_singleton]
          exact Ne.symm other

theorem exists_of_append_eq {c : CodePoint} {lead t before after : Text} (absent : c ∉ lead)
    (same : lead ++ t = before ++ c :: after) : ∃ between, t = between ++ c :: after := by
  rcases List.append_eq_append_iff.mp same with ⟨between, _, behind⟩ | ⟨shared, whole, behind⟩
  · exact ⟨between, behind⟩
  · cases shared with
    | nil => exact ⟨[], behind.symm⟩
    | cons d shared =>
        rw [whole, (List.cons.inj behind).1] at absent
        exact absurd (List.mem_append_right _ List.mem_cons_self) absent

theorem other_of_not_mem {c : CodePoint} {t : Text} (absent : c ∉ t) :
    ∀ d ∈ t, decide (d ≠ c) = true := by
  intro d member
  exact decide_eq_true fun same => absent (same ▸ member)

theorem splitOn_joined {c : CodePoint} {pieces : List Text} (nonempty : pieces ≠ [])
    (absent : ∀ piece ∈ pieces, c ∉ piece) : splitOn c (joined [c] pieces) = pieces := by
  rw [splitOn_eq]
  exact List.splitOn_intercalate c absent nonempty

theorem splitOn_append_cons (c : CodePoint) (s t : Text) :
    splitOn c (s ++ c :: t) = splitOn c s ++ splitOn c t := by
  rw [splitOn_eq, splitOn_eq, splitOn_eq, List.splitOn_append_cons_self]

theorem splitOn_joined_eq_flatMap {c : CodePoint} {pieces : List Text} (nonempty : pieces ≠ []) :
    splitOn c (joined [c] pieces) = pieces.flatMap (splitOn c) := by
  induction pieces with
  | nil => exact absurd rfl nonempty
  | cons piece pieces ih =>
      rw [List.flatMap_cons]
      by_cases last : pieces = []
      · rw [last, joined_singleton, List.flatMap_nil, List.append_nil]
      · rw [joined_cons last, List.append_assoc, List.singleton_append, splitOn_append_cons, ih last]

end UriTemplate.Text
