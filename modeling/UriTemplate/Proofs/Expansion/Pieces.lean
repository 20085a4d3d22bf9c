import UriTemplate.Proofs.Binding
import UriTemplate.Proofs.Expansion.Basic
import UriTemplate.Proofs.Operator.Encoding

/-!
What an expression puts between its joiners: one piece for a variable, or one for each member of a
variable that is exploded. An expansion is its lead and all pieces joined, unless it is empty, and a
piece is made of encoded texts, commas and equals signs.
-/

namespace UriTemplate

namespace Text

def orBlank (pieces : List Text) : List Text := if pieces = [] then [[]] else pieces

theorem orBlank_ne_nil (pieces : List Text) : orBlank pieces ≠ [] := by
  unfold orBlank
  split
  · exact List.cons_ne_nil _ _
  · assumption

theorem orBlank_of_ne_nil {pieces : List Text} (some : pieces ≠ []) : orBlank pieces = pieces :=
  if_neg some

theorem joined_orBlank (separator : Text) (pieces : List Text) :
    joined separator (orBlank pieces) = joined separator pieces := by
  by_cases none : pieces = []
  · rw [none]
    exact joined_singleton []
  · rw [orBlank_of_ne_nil none]

end Text

namespace Operator

def labelled (op : Operator) (name rendered : Text) : Text :=
  if op.isNamed then op.named name rendered else rendered

theorem labelled_of_isNamed {op : Operator} (named : op.isNamed = true) (name rendered : Text) :
    op.labelled name rendered = op.named name rendered :=
  if_pos named

theorem labelled_of_unnamed {op : Operator} (unnamed : op.isNamed = false) (name rendered : Text) :
    op.labelled name rendered = rendered :=
  if_neg (by simp [unnamed])

theorem renderList_eq (op : Operator) (name : Text) (items : List Text) (explode : Bool) :
    op.renderList name items explode =
      if explode then
        Text.joined [op.joiner] (items.map fun item => op.labelled name (op.encode item))
      else op.labelled name (Text.joined [.ofChar ','] (items.map op.encode)) := by
  unfold renderList labelled separator
  cases op.isNamed <;> cases explode <;> rfl

theorem renderMap_eq (op : Operator) (name : Text) (pairs : List (Text × Text)) (explode : Bool) :
    op.renderMap name pairs explode =
      if explode then Text.joined [op.joiner] (pairs.map (op.renderPair true))
      else op.labelled name (Text.joined [.ofChar ','] (pairs.map (op.renderPair false))) := by
  unfold renderMap labelled separator
  cases op.isNamed <;> cases explode <;> rfl

theorem joined_renderPair (op : Operator) (pairs : List (Text × Text)) :
    Text.joined [.ofChar ','] (pairs.map (op.renderPair false)) =
      Text.joined [.ofChar ',']
        ((pairs.flatMap fun pair => [pair.1, pair.2]).map op.encode) := by
  have nonempty : ∀ group ∈ pairs.map fun pair => [pair.1, pair.2].map op.encode,
      group ≠ [] := by
    intro group member
    obtain ⟨pair, _, rfl⟩ := List.mem_map.mp member
    exact List.cons_ne_nil _ _
  -- A key and its value are a group of two members, and groups that are joined flatten.
  rw [List.map_flatMap, List.flatMap, ← Text.joined_flatten nonempty, List.map_map]
  congr 1
  apply List.map_congr_left
  intro pair _
  rw [Function.comp_apply, List.map_cons, List.map_singleton,
    Text.joined_cons (List.cons_ne_nil _ _), Text.joined_singleton]
  simp [renderPair]

end Operator

namespace Varspec

variable {op : Operator} {v : Varspec} {environment : Environment}

/-- What a variable puts between two joiners, none of it when it contributes nothing. -/
def pieces (op : Operator) (v : Varspec) : Option Binding → List Text
  | none => []
  | some (.scalar value) => [op.renderString v.name value (v.maxLength.map Int.ofNat)]
  | some (.list items) =>
    if items.isEmpty && op.omitsEmptyList then []
    else if v.explode then
      Text.orBlank (items.map fun item => op.labelled v.name (op.encode item))
    else [op.labelled v.name (Text.joined [.ofChar ','] (items.map op.encode))]
  | some (.map pairs) =>
    if pairs.isEmpty && op.omitsEmptyMap then []
    else if v.explode then Text.orBlank (pairs.map (op.renderPair true))
    else [op.labelled v.name (Text.joined [.ofChar ','] (pairs.map (op.renderPair false)))]

theorem pieces_list (op : Operator) (v : Varspec) {items : List Text} (members : items ≠ []) :
    v.pieces op (some (.list items)) =
      if v.explode then items.map fun item => op.labelled v.name (op.encode item)
      else [op.labelled v.name (Text.joined [.ofChar ','] (items.map op.encode))] := by
  rw [pieces, if_neg (by simp [members]),
    Text.orBlank_of_ne_nil (List.map_eq_nil_iff.not.mpr members)]

theorem pieces_map (op : Operator) (v : Varspec) {pairs : List (Text × Text)}
    (members : pairs ≠ []) :
    v.pieces op (some (.map pairs)) =
      if v.explode then pairs.map (op.renderPair true)
      else [op.labelled v.name (Text.joined [.ofChar ',']
        ((pairs.flatMap fun pair => [pair.1, pair.2]).map op.encode))] := by
  rw [pieces, if_neg (by simp [members]),
    Text.orBlank_of_ne_nil (List.map_eq_nil_iff.not.mpr members), op.joined_renderPair]

theorem render_eq_pieces (op : Operator) (v : Varspec) (environment : Environment) :
    v.render op environment =
      if v.pieces op (environment v.name) = [] then none
      else some (Text.joined [op.joiner] (v.pieces op (environment v.name))) := by
  unfold render
  generalize environment v.name = binding
  match binding with
  | none => rfl
  | some (.scalar value) =>
      rw [pieces, if_neg (List.cons_ne_nil _ _), Text.joined_singleton]
      rfl
  | some (.list items) =>
      simp only [Operator.render, pieces, Operator.renderList_eq]
      split
      · rfl
      · split
        · rw [if_neg (Text.orBlank_ne_nil _), Text.joined_orBlank]
        · rw [if_neg (List.cons_ne_nil _ _), Text.joined_singleton]
  | some (.map pairs) =>
      simp only [Operator.render, pieces, Operator.renderMap_eq]
      split
      · rfl
      · split
        · rw [if_neg (Text.orBlank_ne_nil _), Text.joined_orBlank]
        · rw [if_neg (List.cons_ne_nil _ _), Text.joined_singleton]

end Varspec

namespace Operator

/-- What holds of encoded texts and of the delimiters inside a piece, and is kept when texts are put
together. -/
structure Composes (op : Operator) (property : Text → Prop) : Prop where
  empty : property []
  encoded : ∀ t, property (op.encode t)
  comma : property [.ofChar ',']
  equalsSign : property [.ofChar '=']
  append : ∀ {s t}, property s → property t → property (s ++ t)

namespace Composes

variable {op : Operator} {property : Text → Prop}

theorem joined (composes : op.Composes property) {separator : Text} {pieces : List Text}
    (between : property separator) (each : ∀ piece ∈ pieces, property piece) :
    property (Text.joined separator pieces) := by
  induction pieces with
  | nil => exact composes.empty
  | cons piece pieces ih =>
      rw [List.forall_mem_cons] at each
      by_cases last : pieces = []
      · rw [last, Text.joined_singleton]
        exact each.1
      · rw [Text.joined_cons last]
        exact composes.append (composes.append each.1 between) (ih each.2)

theorem encodedAll (composes : op.Composes property) (items : List Text) :
    property (Text.joined [.ofChar ','] (items.map op.encode)) :=
  composes.joined composes.comma (List.forall_mem_map.mpr fun item _ => composes.encoded item)

theorem named (composes : op.Composes property) {rendered : Text} (name : Text)
    (value : property rendered) : property (op.named name rendered) :=
  composes.append (composes.encoded name) (composes.append composes.equalsSign value)

theorem labelled (composes : op.Composes property) {rendered : Text} (name : Text)
    (value : property rendered) : property (op.labelled name rendered) := by
  unfold Operator.labelled
  split
  · exact composes.named name value
  · exact value

theorem renderPair (composes : op.Composes property) (explode : Bool) (pair : Text × Text) :
    property (op.renderPair explode pair) := by
  refine composes.append (composes.encoded pair.1) ?_
  cases explode with
  | true => exact composes.append composes.equalsSign (composes.encoded pair.2)
  | false => exact composes.append composes.comma (composes.encoded pair.2)

theorem renderString (composes : op.Composes property) (name value : Text)
    (maxLength : Option Int) : property (op.renderString name value maxLength) := by
  unfold Operator.renderString
  split
  · exact composes.encoded name
  · split
    · exact composes.named name (composes.encoded _)
    · exact composes.encoded _

theorem orBlank (composes : op.Composes property) {pieces : List Text}
    (each : ∀ piece ∈ pieces, property piece) : ∀ piece ∈ Text.orBlank pieces, property piece := by
  unfold Text.orBlank
  split
  · exact List.forall_mem_singleton.mpr composes.empty
  · exact each

theorem piece (composes : op.Composes property) (v : Varspec) (binding : Option Binding) :
    ∀ piece ∈ v.pieces op binding, property piece := by
  match binding with
  | none => exact fun piece member => absurd member List.not_mem_nil
  | some (.scalar value) =>
      exact List.forall_mem_singleton.mpr (composes.renderString v.name value _)
  | some (.list items) =>
      simp only [Varspec.pieces]
      split
      · exact fun piece member => absurd member List.not_mem_nil
      · split
        · refine composes.orBlank (List.forall_mem_map.mpr fun item _ => ?_)
          exact composes.labelled v.name (composes.encoded item)
        · exact List.forall_mem_singleton.mpr (composes.labelled v.name (composes.encodedAll items))
  | some (.map pairs) =>
      simp only [Varspec.pieces]
      split
      · exact fun piece member => absurd member List.not_mem_nil
      · split
        · exact composes.orBlank
            (List.forall_mem_map.mpr fun pair _ => composes.renderPair true pair)
        · refine List.forall_mem_singleton.mpr (composes.labelled v.name ?_)
          exact composes.joined composes.comma
            (List.forall_mem_map.mpr fun pair _ => composes.renderPair false pair)

end Composes

theorem composes_without {op : Operator} {c : CodePoint} (strict : op.allowed = [])
    (reserved : Percent.isUnreserved c = false) (noPercent : c ≠ .ofChar '%')
    (noComma : c ≠ .ofChar ',') (noEquals : c ≠ .ofChar '=') : op.Composes (c ∉ ·) where
  empty := List.not_mem_nil
  encoded _ := not_mem_encode strict reserved noPercent
  comma member := noComma (List.mem_singleton.mp member)
  equalsSign member := noEquals (List.mem_singleton.mp member)
  append left right member := (List.mem_append.mp member).elim left right

theorem composes_unjoined {op : Operator} (named : op.isNamed = true) :
    op.Composes (op.joiner ∉ ·) :=
  have joiner := joiner_of_isNamed named
  composes_without (allowed_of_isNamed named) joiner.1 joiner.2.1 joiner.2.2.2 joiner.2.2.1

end Operator

namespace Expression

variable {environment : Environment}

def pieces (e : Expression) (environment : Environment) : List Text :=
  e.varspecs.flatMap fun v => v.pieces e.operator (environment v.name)

theorem filterMap_render_eq (op : Operator) (varspecs : List Varspec) (environment : Environment) :
    varspecs.filterMap (Varspec.render op environment) =
      ((varspecs.map fun v => v.pieces op (environment v.name)).filter (· ≠ [])).map
        (Text.joined [op.joiner]) := by
  induction varspecs with
  | nil => rfl
  | cons v varspecs ih =>
      have rendered := v.render_eq_pieces op environment
      rw [List.map_cons]
      by_cases nothing : v.pieces op (environment v.name) = []
      · rw [if_pos nothing] at rendered
        rw [List.filterMap_cons_none rendered, ih, List.filter_cons_of_neg (by simp [nothing])]
      · rw [if_neg nothing] at rendered
        rw [List.filterMap_cons_some rendered, ih, List.filter_cons_of_pos (by simp [nothing]),
          List.map_cons]

theorem joined_contributions (e : Expression) (environment : Environment) :
    Text.joined [e.operator.joiner] (e.contributions environment) =
      Text.joined [e.operator.joiner] (e.pieces environment) := by
  rw [contributions, filterMap_render_eq, Text.joined_flatten, List.flatten_filter_ne_nil, pieces,
    List.flatMap]
  intro group member
  simpa using (List.mem_filter.mp member).2

theorem expand_of_mem {e : Expression} {contribution : Text}
    (member : contribution ∈ e.contributions environment) (nonempty : contribution ≠ []) :
    e.expand environment =
      e.operator.lead ++ Text.joined [e.operator.joiner] (e.pieces environment) := by
  rw [expand, assemble_of_mem member nonempty, joined_contributions]

theorem expand_eq_nil_or (e : Expression) (environment : Environment) :
    e.expand environment = [] ∨
      e.expand environment =
        e.operator.lead ++ Text.joined [e.operator.joiner] (e.pieces environment) := by
  rw [expand, assemble, joined_contributions]
  split
  · exact Or.inl rfl
  · exact Or.inr rfl

end Expression

end UriTemplate
