import Mathlib.Data.List.Forall2
import UriTemplate.Proofs.Expansion.Pieces

/-!
What a named expansion assigns, and that it can be read back. Divided at the joiner, at the first
equals sign and at the commas, and decoded part by part, the expansion gives each name with its
values in the order of the variables, whatever characters the names and the values contain.
-/

namespace UriTemplate

abbrev Assignment := Text × List Text

namespace Varspec

/-- What a variable assigns, without regard to how it is written. -/
def assignments (v : Varspec) : Option Binding → List Assignment
  | none => []
  | some (.scalar value) => [(v.name, [v.shown value])]
  | some (.list items) =>
    if v.explode then items.map fun item => (v.name, [item])
    else if items = [] then [] else [(v.name, items)]
  | some (.map pairs) =>
    if v.explode then pairs.map fun pair => (pair.1, [pair.2])
    else if pairs = [] then [] else [(v.name, pairs.flatMap fun pair => [pair.1, pair.2])]

end Varspec

def Expression.assignments (e : Expression) (environment : Environment) : List Assignment :=
  e.varspecs.flatMap fun v => v.assignments (environment v.name)

/-- The name is what stands before the first equals sign, and the values lie between the commas
behind it. -/
def Assignment.ofPiece (piece : Text) : Assignment :=
  (Percent.decode (piece.takeWhile (· ≠ CodePoint.ofChar '=')),
    (Text.splitOn (.ofChar ',') ((piece.dropWhile (· ≠ CodePoint.ofChar '=')).drop 1)).map
      Percent.decode)

namespace Operator

/-- The piece is one between joiners, and it is read as this assignment. -/
structure Spells (op : Operator) (piece : Text) (assignment : Assignment) : Prop where
  nonempty : piece ≠ []
  unjoined : op.joiner ∉ piece
  read : Assignment.ofPiece piece = assignment

variable {op : Operator} {name : Text}

theorem equals_not_mem_encode (named : op.isNamed = true) (t : Text) :
    .ofChar '=' ∉ op.encode t :=
  not_mem_encode (allowed_of_isNamed named) (by decide) (by decide)

theorem spells_bare (named : op.isNamed = true) (scalars : name.hasSurrogate = false)
    (nonempty : name ≠ []) : op.Spells (op.encode name) (name, [[]]) where
  nonempty empty := nonempty (encode_eq_nil_iff.mp empty)
  unjoined := (composes_unjoined named).encoded name
  read := by
    have before := Text.other_of_not_mem (equals_not_mem_encode named name)
    have whole := List.takeWhile_eq_self_iff.mpr before
    have nothing := List.dropWhile_eq_nil_iff.mpr before
    rw [Assignment.ofPiece, whole, nothing, op.decode_encode scalars]
    simp [Text.splitOn, Percent.decode]

theorem spells_named (named : op.isNamed = true) {values : List Text}
    (nameScalars : name.hasSurrogate = false)
    (valueScalars : ∀ value ∈ values, value.hasSurrogate = false) (nonempty : values ≠ []) :
    op.Spells (op.named name (Text.joined [.ofChar ','] (values.map op.encode)))
      (name, values) where
  nonempty := by simp [Operator.named]
  unjoined := (composes_unjoined named).named name ((composes_unjoined named).encodedAll values)
  read := by
    have before := Text.other_of_not_mem (equals_not_mem_encode named name)
    have divided := splitOn_joined_encode (allowed_of_isNamed named) nonempty
    have decoded : (values.map op.encode).map Percent.decode = values := by
      rw [List.map_map]
      refine (List.map_congr_left ?_).trans (List.map_id values)
      intro value listed
      exact op.decode_encode (valueScalars value listed)
    rw [Assignment.ofPiece, Operator.named, List.takeWhile_append_of_pos before,
      List.dropWhile_append_of_pos before, List.takeWhile_cons_of_neg (by simp),
      List.dropWhile_cons_of_neg (by simp), List.append_nil, op.decode_encode nameScalars]
    change (name, (Text.splitOn _ (Text.joined _ _)).map _) = _
    rw [divided, decoded]

theorem spells_value (named : op.isNamed = true) {value : Text}
    (nameScalars : name.hasSurrogate = false) (valueScalars : value.hasSurrogate = false) :
    op.Spells (op.named name (op.encode value)) (name, [value]) := by
  have single := spells_named named nameScalars
    (List.forall_mem_singleton.mpr valueScalars) (List.cons_ne_nil value [])
  rwa [List.map_singleton, Text.joined_singleton] at single

theorem spelled {pieces : List Text} {assignments : List Assignment}
    (spells : List.Forall₂ op.Spells pieces assignments) :
    (∀ piece ∈ pieces, piece ≠ [] ∧ op.joiner ∉ piece) ∧
      pieces.map Assignment.ofPiece = assignments := by
  induction spells with
  | nil => simp
  | cons first _ ih =>
      refine ⟨List.forall_mem_cons.mpr ⟨⟨first.nonempty, first.unjoined⟩, ih.1⟩, ?_⟩
      rw [List.map_cons, first.read, ih.2]

theorem omits_of_isNamed (named : op.isNamed = true) (other : op ≠ .pathParameter) :
    op.omitsEmptyList = true ∧ op.omitsEmptyMap = true := by
  cases op <;> first | exact ⟨rfl, rfl⟩ | exact absurd rfl other | exact absurd named Bool.false_ne_true

end Operator

namespace Varspec

/-- The names that are assigned to and the texts of the binding can be decoded, and a path parameter
has a name and, if it is a list or a map, has members. The name of a variable that assigns nothing
by that name does not matter. -/
structure Legible (op : Operator) (v : Varspec) (binding : Option Binding) : Prop where
  names : ∀ assignment ∈ v.assignments binding, assignment.1.hasSurrogate = false
  texts : ∀ bound ∈ binding, ∀ t ∈ bound.texts, t.hasSurrogate = false
  parameter : op = .pathParameter →
    v.name ≠ [] ∧ binding ≠ some (.list []) ∧ binding ≠ some (.map [])

variable {op : Operator} {v : Varspec} {environment : Environment}

theorem spells_scalar (named : op.isNamed = true) {value : Text}
    (legible : v.Legible op (some (.scalar value))) :
    op.Spells (op.renderString v.name value (v.maxLength.map Int.ofNat))
      (v.name, [v.shown value]) := by
  have scalars : value.hasSurrogate = false :=
    legible.texts _ rfl value (List.mem_singleton_self value)
  have name : v.name.hasSurrogate = false := legible.names _ (List.mem_singleton_self _)
  unfold Operator.renderString
  split
  · rename_i bare
    rw [bare.2, shown_nil]
    exact Operator.spells_bare named name (legible.parameter bare.1).1
  · rw [renderScalar_eq]
    exact Operator.spells_value named name (hasSurrogate_shown scalars)

theorem spells_pieces_list (named : op.isNamed = true) {items : List Text} (members : items ≠ [])
    (legible : v.Legible op (some (.list items))) :
    List.Forall₂ op.Spells (v.pieces op (some (.list items)))
      (v.assignments (some (.list items))) := by
  have scalars : ∀ item ∈ items, item.hasSurrogate = false := legible.texts _ rfl
  have names := legible.names
  rw [assignments] at names
  rw [pieces_list op v members, assignments]
  cases exploded : v.explode with
  | true =>
      rw [if_pos exploded] at names
      rw [if_pos rfl, if_pos rfl, List.forall₂_map_left_iff, List.forall₂_map_right_iff,
        List.forall₂_same]
      intro item listed
      rw [Operator.labelled_of_isNamed named]
      have name : v.name.hasSurrogate = false :=
        names (v.name, [item]) (List.mem_map.mpr ⟨item, listed, rfl⟩)
      exact Operator.spells_value named name (scalars item listed)
  | false =>
      rw [if_neg (Bool.eq_false_iff.mp exploded), if_neg members] at names
      rw [if_neg Bool.false_ne_true, if_neg Bool.false_ne_true, if_neg members,
        Operator.labelled_of_isNamed named]
      have name : v.name.hasSurrogate = false := names _ (List.mem_singleton_self _)
      have spells := Operator.spells_named named name scalars members
      exact List.Forall₂.cons spells List.Forall₂.nil

theorem spells_pieces_map (named : op.isNamed = true) {pairs : List (Text × Text)}
    (members : pairs ≠ []) (legible : v.Legible op (some (.map pairs))) :
    List.Forall₂ op.Spells (v.pieces op (some (.map pairs)))
      (v.assignments (some (.map pairs))) := by
  have scalars : ∀ t ∈ pairs.flatMap fun pair => [pair.1, pair.2], t.hasSurrogate = false :=
    legible.texts _ rfl
  rw [pieces_map op v members, assignments]
  cases exploded : v.explode with
  | true =>
      rw [if_pos rfl, if_pos rfl, List.forall₂_map_left_iff, List.forall₂_map_right_iff,
        List.forall₂_same]
      intro pair listed
      have inside := Binding.mem_texts_map listed
      exact Operator.spells_value named (scalars _ inside.1) (scalars _ inside.2)
  | false =>
      have names := legible.names
      rw [assignments, if_neg (Bool.eq_false_iff.mp exploded), if_neg members] at names
      rw [if_neg Bool.false_ne_true, if_neg Bool.false_ne_true, if_neg members,
        Operator.labelled_of_isNamed named]
      have name : v.name.hasSurrogate = false := names _ (List.mem_singleton_self _)
      have spells := Operator.spells_named named name scalars
        (Binding.flatMap_pair_ne_nil members)
      exact List.Forall₂.cons spells List.Forall₂.nil

theorem spells_pieces (named : op.isNamed = true) {binding : Option Binding}
    (legible : v.Legible op binding) :
    List.Forall₂ op.Spells (v.pieces op binding) (v.assignments binding) := by
  match binding with
  | none => exact List.Forall₂.nil
  | some (.scalar value) => exact List.Forall₂.cons (spells_scalar named legible) List.Forall₂.nil
  | some (.list items) =>
      by_cases members : items = []
      · subst members
        have other : op ≠ .pathParameter := fun same => (legible.parameter same).2.1 rfl
        simp [pieces, assignments, (Operator.omits_of_isNamed named other).1]
      · exact spells_pieces_list named members legible
  | some (.map pairs) =>
      by_cases members : pairs = []
      · subst members
        have other : op ≠ .pathParameter := fun same => (legible.parameter same).2.2 rfl
        simp [pieces, assignments, (Operator.omits_of_isNamed named other).2]
      · exact spells_pieces_map named members legible

end Varspec

namespace Expression

variable {environment : Environment}

theorem exists_groups {op : Operator} (named : op.isNamed = true) {varspecs : List Varspec}
    (legible : ∀ v ∈ varspecs, v.Legible op (environment v.name)) :
    ∃ groups : List (List Text),
      varspecs.filterMap (Varspec.render op environment) = groups.map (Text.joined [op.joiner]) ∧
      (∀ group ∈ groups, group ≠ []) ∧
      List.Forall₂ op.Spells groups.flatten
        (varspecs.flatMap fun v => v.assignments (environment v.name)) := by
  refine ⟨_, filterMap_render_eq op varspecs environment, ?_, ?_⟩
  · intro group member
    simpa using (List.mem_filter.mp member).2
  · rw [List.flatten_filter_ne_nil]
    induction varspecs with
    | nil => exact List.Forall₂.nil
    | cons v varspecs ih =>
        rw [List.forall_mem_cons] at legible
        rw [List.map_cons, List.flatten_cons, List.flatMap_cons]
        exact List.rel_append (Varspec.spells_pieces named legible.1) (ih legible.2)

/-- Divided and decoded, a named expansion gives back what the variables assign; it is empty when
they assign nothing. -/
theorem read_expand (e : Expression) (environment : Environment)
    (named : e.operator.isNamed = true)
    (legible : ∀ v ∈ e.varspecs, v.Legible e.operator (environment v.name)) :
    (e.assignments environment = [] → e.expand environment = []) ∧
      (e.assignments environment ≠ [] →
        ∃ text, e.expand environment = e.operator.lead ++ text ∧
          (Text.splitOn e.operator.joiner text).map Assignment.ofPiece =
            e.assignments environment) := by
  obtain ⟨groups, contributions, nonempty, spells⟩ := exists_groups named legible
  obtain ⟨sound, read⟩ := Operator.spelled spells
  change e.contributions environment = _ at contributions
  change groups.flatten.map Assignment.ofPiece = e.assignments environment at read
  -- A group is a variable that contributes, so there is no group exactly when nothing is assigned.
  cases groups with
  | nil =>
      rw [← read, expand, contributions]
      exact ⟨fun _ => rfl, fun some => absurd rfl some⟩
  | cons group others =>
      have several : (group :: others).flatten ≠ [] := by
        rw [List.flatten_cons]
        exact List.append_ne_nil_of_left_ne_nil (nonempty group List.mem_cons_self) _
      have written : Text.joined [e.operator.joiner] group ≠ [] := by
        apply Text.joined_ne_nil (nonempty group List.mem_cons_self)
        intro piece member
        exact (sound piece (List.mem_append_left _ member)).1
      have expanded : e.expand environment = e.operator.lead ++
          Text.joined [e.operator.joiner] (group :: others).flatten := by
        rw [expand, contributions, ← Text.joined_flatten nonempty]
        apply if_neg
        simp [written]
      refine ⟨fun nothing => ?_, fun _ => ⟨_, expanded, ?_⟩⟩
      · rw [← read, List.map_eq_nil_iff] at nothing
        exact absurd nothing several
      · rw [Text.splitOn_joined several fun piece member => (sound piece member).2, read]

theorem read_expand_delimiters :
    ∃ text, expand ⟨"?q:2,m*", .query, [⟨"q", false, some 2⟩, ⟨"m", true, none⟩]⟩
        (fun name => if name = "q" then some (.scalar "&=,")
          else some (.map [("a=b", "%;"), ("", "")])) = .ofChar '?' :: text ∧
      (Text.splitOn '&' text).map Assignment.ofPiece =
        ([("q", ["&="]), ("a=b", ["%;"]), ("", [""])] : List Assignment) := by
  refine (read_expand ⟨"?q:2,m*", .query, [⟨"q", false, some 2⟩, ⟨"m", true, none⟩]⟩
    (fun name => if name = "q" then some (.scalar "&=,")
      else some (.map [("a=b", "%;"), ("", "")])) rfl ?_).2 (by decide)
  refine List.forall_mem_cons.mpr ⟨⟨by decide, by decide, by decide⟩, ?_⟩
  exact List.forall_mem_singleton.mpr ⟨by decide, by decide, by decide⟩

def surrogateQuery : Expression :=
  ⟨[.ofChar '?', ⟨0xd800, by decide⟩], .query, [⟨[⟨0xd800, by decide⟩], false, none⟩]⟩

/-- The name is written, but no decoding gives a surrogate back. -/
theorem not_read_expand_surrogateQuery :
    ¬ ∃ text, surrogateQuery.expand (fun _ => some (.scalar "x")) = .ofChar '?' :: text ∧
      (Text.splitOn '&' text).map Assignment.ofPiece =
        surrogateQuery.assignments (fun _ => some (.scalar "x")) := by
  rintro ⟨text, expanded, read⟩
  have whole : surrogateQuery.expand (fun _ => some (.scalar "x")) = "?%ED%A0%80=x" := by decide
  have written : text = "%ED%A0%80=x" := (List.cons.inj (expanded.symm.trans whole)).2
  have parts : (Text.splitOn '&' "%ED%A0%80=x").map Assignment.ofPiece =
      [(Percent.decode "%ED%A0%80", [Percent.decode "x"])] := rfl
  have name : Percent.decode "%ED%A0%80" = [.replacement, .replacement, .replacement] := by
    rw [Percent.decode_of_ascii (by decide)]
    decide
  rw [written, parts, name] at read
  exact absurd (congrArg (List.map Prod.fst) read) (by decide)

end Expression

end UriTemplate
