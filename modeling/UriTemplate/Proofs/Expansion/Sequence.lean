import Mathlib.Algebra.Order.Ring.Nat
import UriTemplate.Proofs.Operator.Alphabet

/-!
Simple and path-segment expansions keep the sequence of values. Divided at the joiner, a segment
further at its commas and a part at its equals sign, and decoded, the expansion gives back every
text of every variable in order, whatever characters the texts contain.
-/

namespace UriTemplate

namespace Text

/-- The decoded sides of an equals sign, or the decoded whole when there is none. -/
def sides (part : Text) : List Text := (splitOn '=' part).map Percent.decode

/-- What stands between the commas, each part by its sides. -/
def parts (piece : Text) : List (List Text) := (splitOn ',' piece).map sides

end Text

structure Binding.Legible (binding : Binding) : Prop where
  texts : ∀ t ∈ binding.texts, t.hasSurrogate = false
  list : binding ≠ .list []
  map : binding ≠ .map []

instance (binding : Binding) : Decidable binding.Legible :=
  decidable_of_iff ((∀ t ∈ binding.texts, t.hasSurrogate = false) ∧
      binding ≠ .list [] ∧ binding ≠ .map [])
    ⟨fun ⟨texts, list, map⟩ => ⟨texts, list, map⟩, fun ⟨texts, list, map⟩ => ⟨texts, list, map⟩⟩

namespace Varspec

/-- What a variable stands for: the segments, the parts of each, and of a part its sides, which are
two for a pair of an exploded map. -/
def segments (v : Varspec) : Option Binding → List (List (List Text))
  | none => []
  | some (.scalar value) => [[[v.shown value]]]
  | some (.list items) =>
    if v.explode then items.map fun item => [[item]] else [items.map fun item => [item]]
  | some (.map pairs) =>
    if v.explode then pairs.map fun pair => [[pair.1, pair.2]]
    else [pairs.flatMap fun pair => [[pair.1], [pair.2]]]

def segmentCount (v : Varspec) : Option Binding → Nat
  | none => 0
  | some (.scalar _) => 1
  | some (.list items) => if v.explode then items.length else 1
  | some (.map pairs) => if v.explode then pairs.length else 1

theorem length_segments (v : Varspec) (binding : Option Binding) :
    (v.segments binding).length = v.segmentCount binding := by
  match binding with
  | none => rfl
  | some (.scalar _) => rfl
  | some (.list items) =>
      simp only [segments, segmentCount]
      split
      · rw [List.length_map]
      · rfl
  | some (.map pairs) =>
      simp only [segments, segmentCount]
      split
      · rw [List.length_map]
      · rfl

end Varspec

namespace Operator

variable {op : Operator}

theorem sides_encode (strict : op.allowed = []) {t : Text} (scalars : t.hasSurrogate = false) :
    (op.encode t).sides = [t] := by
  have whole : .ofChar '=' ∉ op.encode t := not_mem_encode strict (by decide) (by decide)
  rw [Text.sides, Text.splitOn_of_not_mem whole, List.map_singleton, op.decode_encode scalars]

theorem sides_renderPair (strict : op.allowed = []) {pair : Text × Text}
    (key : pair.1.hasSurrogate = false) (value : pair.2.hasSurrogate = false) :
    (op.renderPair true pair).sides = [pair.1, pair.2] := by
  rw [renderPair, if_pos rfl, Text.sides, Text.splitOn_append_cons, List.map_append]
  exact congrArg₂ _ (sides_encode strict key) (sides_encode strict value)

theorem parts_encode (strict : op.allowed = []) {t : Text} (scalars : t.hasSurrogate = false) :
    (op.encode t).parts = [[t]] := by
  have whole : .ofChar ',' ∉ op.encode t := not_mem_encode strict (by decide) (by decide)
  rw [Text.parts, Text.splitOn_of_not_mem whole, List.map_singleton, sides_encode strict scalars]

theorem parts_renderPair (strict : op.allowed = []) {pair : Text × Text}
    (key : pair.1.hasSurrogate = false) (value : pair.2.hasSurrogate = false) :
    (op.renderPair true pair).parts = [[pair.1, pair.2]] := by
  have absent {t : Text} : .ofChar ',' ∉ op.encode t :=
    not_mem_encode strict (by decide) (by decide)
  have whole : .ofChar ',' ∉ op.renderPair true pair := by
    rw [renderPair, if_pos rfl, List.mem_append, List.mem_cons]
    rintro (inKey | equalsSign | inValue)
    · exact absent inKey
    · exact absurd equalsSign (by decide)
    · exact absent inValue
  rw [Text.parts, Text.splitOn_of_not_mem whole, List.map_singleton,
    sides_renderPair strict key value]

theorem parts_joined (strict : op.allowed = []) {items : List Text} (members : items ≠ [])
    (scalars : ∀ item ∈ items, item.hasSurrogate = false) :
    (Text.joined [.ofChar ','] (items.map op.encode)).parts = items.map fun item => [item] := by
  rw [Text.parts, splitOn_joined_encode strict members, List.map_map]
  exact List.map_congr_left fun item listed => sides_encode strict (scalars item listed)

theorem renderString_of_unnamed (unnamed : op.isNamed = false) (name value : Text)
    (maxLength : Option Int) :
    op.renderString name value maxLength = op.renderScalar value maxLength := by
  rw [renderString, if_neg, if_neg (by simp [unnamed])]
  rintro ⟨rfl, _⟩
  exact Bool.noConfusion unnamed

end Operator

namespace Varspec

variable {op : Operator} {v : Varspec}

theorem map_parts_pieces_list (strict : op.allowed = []) (unnamed : op.isNamed = false)
    {items : List Text} (legible : (Binding.list items).Legible) :
    (v.pieces op (some (.list items))).map Text.parts = v.segments (some (.list items)) := by
  have members : items ≠ [] := fun none => legible.list (by rw [none])
  have scalars : ∀ item ∈ items, item.hasSurrogate = false := legible.texts
  rw [pieces_list op v members, segments]
  cases v.explode with
  | true =>
      rw [if_pos rfl, if_pos rfl, List.map_map]
      apply List.map_congr_left
      intro item listed
      rw [Function.comp_apply, Operator.labelled_of_unnamed unnamed,
        Operator.parts_encode strict (scalars item listed)]
  | false =>
      rw [if_neg Bool.false_ne_true, if_neg Bool.false_ne_true, List.map_singleton,
        Operator.labelled_of_unnamed unnamed, Operator.parts_joined strict members scalars]

theorem map_parts_pieces_map (strict : op.allowed = []) (unnamed : op.isNamed = false)
    {pairs : List (Text × Text)} (legible : (Binding.map pairs).Legible) :
    (v.pieces op (some (.map pairs))).map Text.parts = v.segments (some (.map pairs)) := by
  have members : pairs ≠ [] := fun none => legible.map (by rw [none])
  have scalars : ∀ t ∈ pairs.flatMap fun pair => [pair.1, pair.2], t.hasSurrogate = false :=
    legible.texts
  rw [pieces_map op v members, segments]
  cases v.explode with
  | true =>
      rw [if_pos rfl, if_pos rfl, List.map_map]
      apply List.map_congr_left
      intro pair listed
      have inside := Binding.mem_texts_map listed
      rw [Function.comp_apply,
        Operator.parts_renderPair strict (scalars _ inside.1) (scalars _ inside.2)]
  | false =>
      rw [if_neg Bool.false_ne_true, if_neg Bool.false_ne_true, List.map_singleton,
        Operator.labelled_of_unnamed unnamed,
        Operator.parts_joined strict (Binding.flatMap_pair_ne_nil members) scalars,
        List.map_flatMap]
      rfl

theorem map_parts_pieces (strict : op.allowed = []) (unnamed : op.isNamed = false)
    {binding : Option Binding} (legible : ∀ bound ∈ binding, bound.Legible) :
    (v.pieces op binding).map Text.parts = v.segments binding := by
  match binding with
  | none => rfl
  | some (.scalar value) =>
      have scalars : value.hasSurrogate = false :=
        (legible _ rfl).texts value (List.mem_singleton_self value)
      rw [pieces, segments, Operator.renderString_of_unnamed unnamed, renderScalar_eq,
        List.map_singleton, Operator.parts_encode strict (hasSurrogate_shown scalars)]
  | some (.list items) => exact map_parts_pieces_list strict unnamed (legible _ rfl)
  | some (.map pairs) => exact map_parts_pieces_map strict unnamed (legible _ rfl)

end Varspec

namespace Expression

variable {e : Expression} {environment : Environment}

def segments (e : Expression) (environment : Environment) : List (List (List Text)) :=
  e.varspecs.flatMap fun v => v.segments (environment v.name)

theorem pieces_ne_nil {contribution : Text} (member : contribution ∈ e.contributions environment) :
    e.pieces environment ≠ [] := by
  obtain ⟨v, listed, rendered⟩ := List.mem_filterMap.mp member
  rw [Varspec.render_eq_pieces] at rendered
  split at rendered
  · exact absurd rendered.symm (Option.some_ne_none contribution)
  · rename_i some
    intro none
    exact some (List.flatMap_eq_nil_iff.mp none v listed)

theorem map_parts_pieces (strict : e.operator.allowed = []) (unnamed : e.operator.isNamed = false)
    (legible : ∀ v ∈ e.varspecs, ∀ bound ∈ environment v.name, bound.Legible) :
    (e.pieces environment).map Text.parts = e.segments environment := by
  rw [pieces, List.map_flatMap]
  exact List.flatMap_congr fun v listed =>
    Varspec.map_parts_pieces strict unnamed (legible v listed)

/-- Divided and decoded, the expansion is the sequence of the texts that the variables show. -/
theorem divide_expand (e : Expression) (environment : Environment)
    (positional : e.operator = .simple ∨ e.operator = .pathSegment)
    (legible : ∀ v ∈ e.varspecs, ∀ bound ∈ environment v.name, bound.Legible)
    (shows : ∃ contribution ∈ e.contributions environment, contribution ≠ []) :
    ∃ text, e.expand environment = e.operator.lead ++ text ∧
      (e.operator = .simple →
        (Text.splitOn ',' text).map Text.sides = (e.segments environment).flatten) ∧
      (e.operator = .pathSegment →
        (Text.splitOn '/' text).map Text.parts = e.segments environment ∧
          (Text.splitOn '/' text).length =
            (e.varspecs.map fun v => v.segmentCount (environment v.name)).sum) := by
  obtain ⟨contribution, member, nonempty⟩ := shows
  have read : (e.pieces environment).map Text.parts = e.segments environment := by
    rcases positional with simple | slashes
    · exact map_parts_pieces (by rw [simple]; rfl) (by rw [simple]; rfl) legible
    · exact map_parts_pieces (by rw [slashes]; rfl) (by rw [slashes]; rfl) legible
  refine ⟨_, expand_of_mem member nonempty, ?_, ?_⟩
  · intro simple
    have comma : e.operator.joiner = .ofChar ',' := by rw [simple]; rfl
    rw [comma, Text.splitOn_joined_eq_flatMap (pieces_ne_nil member), List.map_flatMap, ← read]
    rfl
  · intro slashes
    have slash : e.operator.joiner = .ofChar '/' := by rw [slashes]; rfl
    have divided : Text.splitOn (.ofChar '/') (Text.joined [.ofChar '/'] (e.pieces environment)) =
        e.pieces environment :=
      Text.splitOn_joined (pieces_ne_nil member) (slash_not_mem_pieces slashes)
    have counted : (e.segments environment).length =
        (e.varspecs.map fun v => v.segmentCount (environment v.name)).sum := by
      rw [segments, List.length_flatMap]
      simp only [Varspec.length_segments]
    rw [slash, divided, read]
    refine ⟨rfl, ?_⟩
    rw [← counted, ← read, List.length_map]

theorem divide_expand_slashes :
    ∃ text, expand ⟨"/a:2,b,c,m*", .pathSegment,
        [⟨"a", false, some 2⟩, ⟨"b", false, none⟩, ⟨"c", false, none⟩, ⟨"m", true, none⟩]⟩
        (fun name => if name = "a" then some (.scalar "/,=")
          else if name = "b" then some (.list ["", "x,y"])
          else if name = "m" then some (.map [("k=", "/"), ("%", "")])
          else none) = .ofChar '/' :: text ∧
      (Text.splitOn '/' text).map Text.parts =
        ([[["/,"]], [[""], ["x,y"]], [["k=", "/"]], [["%", ""]]] : List (List (List Text))) ∧
      (Text.splitOn '/' text).length = 4 := by
  obtain ⟨text, expanded, _, slashes⟩ := divide_expand ⟨"/a:2,b,c,m*", .pathSegment,
    [⟨"a", false, some 2⟩, ⟨"b", false, none⟩, ⟨"c", false, none⟩, ⟨"m", true, none⟩]⟩
    (fun name => if name = "a" then some (.scalar "/,=")
      else if name = "b" then some (.list ["", "x,y"])
      else if name = "m" then some (.map [("k=", "/"), ("%", "")])
      else none) (Or.inr rfl) (by decide) ⟨"%2F%2C", by decide, by decide⟩
  exact ⟨text, expanded, slashes rfl⟩

end Expression

end UriTemplate
