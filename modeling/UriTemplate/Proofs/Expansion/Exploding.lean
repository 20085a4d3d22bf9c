import Mathlib.Algebra.Order.BigOperators.Group.List
import Mathlib.Algebra.Order.Ring.Nat
import UriTemplate.Proofs.Datum.Environment
import UriTemplate.Proofs.Expansion.Pieces
import UriTemplate.Proofs.Template.Printing

/-!
A named operator writes an exploded list or map as it writes the members when they are variables of
their own. Only a path parameter tells them apart: a variable that is empty is its bare name there,
and a member that is empty is not.
-/

namespace UriTemplate

theorem Text.length_joined (separator : Text) (pieces : List Text) :
    (joined separator pieces).length =
      (pieces.map List.length).sum + (pieces.length - 1) * separator.length := by
  cases pieces with
  | nil => simp [joined]
  | cons piece pieces =>
      rw [joined_cons_eq_flatMap, List.length_append, List.length_flatMap, List.map_cons,
        List.sum_cons, List.length_cons, Nat.add_sub_cancel, Nat.add_assoc]
      congr 1
      induction pieces with
      | nil => simp
      | cons next pieces ih =>
          rw [List.map_cons, List.sum_cons, ih, List.map_cons, List.sum_cons, List.length_append,
            List.length_cons, Nat.add_mul]
          omega

theorem Text.length_joined_map_lt {α : Type} {separator : Text} {f g : α → Text} {as : List α}
    (each : ∀ a ∈ as, (f a).length ≤ (g a).length) (one : ∃ a ∈ as, (f a).length < (g a).length) :
    (joined separator (as.map f)).length < (joined separator (as.map g)).length := by
  have sums := List.sum_lt_sum (fun a => (f a).length) (fun a => (g a).length) each one
  rw [length_joined, length_joined, List.map_map, List.map_map, List.length_map, List.length_map]
  exact Nat.add_lt_add_right sums _

namespace Operator

variable {op : Operator}

theorem renderString_of_isNamed (named : op.isNamed = true) (name value : Text) :
    op.renderString name value none =
      if op = .pathParameter ∧ value = [] then op.encode name
      else op.named name (op.encode value) := by
  rw [renderString, if_pos named, renderScalar]

theorem length_renderString_le (named : op.isNamed = true) (pair : Text × Text) :
    (op.renderString pair.1 pair.2 none).length ≤ (op.named pair.1 (op.encode pair.2)).length := by
  rw [renderString_of_isNamed named]
  split
  · simp [Operator.named]
  · exact Nat.le_refl _

theorem length_renderString_lt (named : op.isNamed = true) {pair : Text × Text}
    (bare : op = .pathParameter ∧ pair.2 = []) :
    (op.renderString pair.1 pair.2 none).length < (op.named pair.1 (op.encode pair.2)).length := by
  rw [renderString_of_isNamed named, if_pos bare]
  simp [Operator.named]

theorem joined_renderString (named : op.isNamed = true) (pairs : List (Text × Text)) :
    (op = .pathParameter → [] ∉ pairs.map Prod.snd) ∧
        Text.joined [op.joiner] (pairs.map fun pair => op.renderString pair.1 pair.2 none) =
          Text.joined [op.joiner] (pairs.map fun pair => op.named pair.1 (op.encode pair.2)) ∨
      ¬ (op = .pathParameter → [] ∉ pairs.map Prod.snd) ∧
        (Text.joined [op.joiner]
          (pairs.map fun pair => op.renderString pair.1 pair.2 none)).length <
          (Text.joined [op.joiner]
            (pairs.map fun pair => op.named pair.1 (op.encode pair.2))).length := by
  by_cases bare : op = .pathParameter ∧ [] ∈ pairs.map Prod.snd
  · obtain ⟨pair, listed, empty⟩ := List.mem_map.mp bare.2
    refine Or.inr ⟨fun full => full bare.1 bare.2, Text.length_joined_map_lt ?_ ?_⟩
    · intro pair _
      exact length_renderString_le named pair
    · exact ⟨pair, listed, length_renderString_lt named ⟨bare.1, empty⟩⟩
  · refine Or.inl ⟨fun parameter member => bare ⟨parameter, member⟩, ?_⟩
    congr 1
    apply List.map_congr_left
    intro pair listed
    rw [renderString_of_isNamed named, if_neg]
    rintro ⟨parameter, empty⟩
    exact bare ⟨parameter, List.mem_map.mpr ⟨pair, listed, empty⟩⟩

theorem joined_renderString_eq_iff (named : op.isNamed = true) (pairs : List (Text × Text)) :
    Text.joined [op.joiner] (pairs.map fun pair => op.named pair.1 (op.encode pair.2)) =
        Text.joined [op.joiner] (pairs.map fun pair => op.renderString pair.1 pair.2 none) ↔
      (op = .pathParameter → [] ∉ pairs.map Prod.snd) := by
  rcases joined_renderString named pairs with ⟨full, same⟩ | ⟨bare, shorter⟩
  · exact ⟨fun _ => full, fun _ => same.symm⟩
  · refine ⟨fun same => ?_, fun full => absurd full bare⟩
    rw [same] at shorter
    exact absurd shorter (Nat.lt_irrefl _)

theorem renderList_explode (named : op.isNamed = true) (name : Text) (items : List Text) :
    op.renderList name items true =
      Text.joined [op.joiner] (items.map fun item => op.named name (op.encode item)) := by
  rw [renderList_eq, if_pos rfl]
  simp only [labelled_of_isNamed named]

theorem renderMap_explode (name : Text) (pairs : List (Text × Text)) :
    op.renderMap name pairs true =
      Text.joined [op.joiner] (pairs.map fun pair => op.named pair.1 (op.encode pair.2)) := by
  rw [renderMap_eq, if_pos rfl]
  rfl

end Operator

namespace Expression

variable {op : Operator} {body : Text} {environment : Environment}

theorem expand_exploded {name : Text} {pairs : List (Text × Text)} (members : pairs ≠ [])
    (bound : environment name = some (.map pairs)) :
    expand ⟨body, op, [⟨name, true, none⟩]⟩ environment = op.lead ++
      Text.joined [op.joiner] (pairs.map fun pair => op.named pair.1 (op.encode pair.2)) := by
  have rendered : Varspec.render op environment ⟨name, true, none⟩ =
      some (op.renderMap name pairs true) := by
    rw [Varspec.render, bound]
    simp [Operator.render, members]
  have nonempty : op.renderMap name pairs true ≠ [] := by
    rw [Operator.renderMap_explode]
    apply Text.joined_ne_nil (List.map_eq_nil_iff.not.mpr members)
    exact List.forall_mem_map.mpr fun pair _ => by simp [Operator.named]
  rw [expand, contributions, List.filterMap_cons_some rendered, List.filterMap_nil,
    assemble_of_mem (List.mem_singleton_self _) nonempty, Text.joined_singleton,
    Operator.renderMap_explode]

theorem contributions_listed {pairs : List (Text × Text)}
    (bound : ∀ pair ∈ pairs, environment pair.1 = some (.scalar pair.2)) :
    contributions ⟨body, op, pairs.map fun pair => ⟨pair.1, false, none⟩⟩ environment =
      pairs.map fun pair => op.renderString pair.1 pair.2 none := by
  rw [contributions, List.filterMap_map]
  refine Eq.trans ?_ (congrFun List.filterMap_eq_map pairs)
  apply List.filterMap_congr
  intro pair listed
  rw [Function.comp_apply, Varspec.render, bound pair listed]
  rfl

theorem expand_exploded_eq_iff (named : op.isNamed = true) {name other : Text}
    {pairs : List (Text × Text)} {given listed : Environment} (members : pairs ≠ [])
    (whole : given name = some (.map pairs))
    (each : ∀ pair ∈ pairs, listed pair.1 = some (.scalar pair.2)) :
    expand ⟨body, op, [⟨name, true, none⟩]⟩ given =
        expand ⟨other, op, pairs.map fun pair => ⟨pair.1, false, none⟩⟩ listed ↔
      (op = .pathParameter → [] ∉ pairs.map Prod.snd) := by
  rw [expand_exploded members whole, expand, contributions_listed each]
  rcases Operator.joined_renderString named pairs with ⟨full, same⟩ | ⟨bare, shorter⟩
  · obtain ⟨first, inside⟩ := List.exists_mem_of_ne_nil pairs members
    have nonempty : op.renderString first.1 first.2 none ≠ [] := by
      rw [Operator.renderString_of_isNamed named, if_neg]
      · simp [Operator.named]
      · exact fun empty => full empty.1 (List.mem_map.mpr ⟨first, inside, empty.2⟩)
    rw [assemble_of_mem (List.mem_map_of_mem inside) nonempty, same]
    exact ⟨fun _ => full, fun _ => rfl⟩
  -- With an empty path parameter among them the members expand to something shorter.
  · refine ⟨fun same => ?_, fun full => absurd full bare⟩
    have bounded := length_assemble_le op
      (pairs.map fun pair => op.renderString pair.1 pair.2 none)
    rw [← same, List.length_append, List.length_append] at bounded
    exact absurd (Nat.le_of_add_le_add_left bounded) (Nat.not_le.mpr shorter)

end Expression

theorem expandText_listing {op : Operator} {varspecs : List Varspec} (named : op.isNamed = true)
    (nonempty : varspecs ≠ [])
    (printable : ∀ v ∈ varspecs, v.Printable ∧ .ofChar '}' ∉ v.name) {bindings : Datum}
    {bound : List (Datum × Binding)} (coerced : bindings.coerceBindings = .ok bound) :
    expandText (.text (Template.listing op varspecs).text) bindings =
      .ok (Expression.expand ⟨Expression.bodyOf op varspecs, op, varspecs⟩
        (Datum.environmentOf bound)) := by
  have parsed : (Template.listing op varspecs).segments =
      .ok [.expression ⟨Expression.bodyOf op varspecs, op, varspecs⟩] := by
    apply Template.segments_listing nonempty
    · exact fun v listed => (printable v listed).1
    · exact fun v listed => (printable v listed).2
    · rintro rfl
      exact absurd named Bool.false_ne_true
    · cases op <;> first | exact List.cons_ne_nil _ _ | exact absurd named Bool.false_ne_true
  rw [expandText_text coerced]
  refine (Template.expand_eq parsed).trans ?_
  rw [List.flatMap_singleton, Segment.expand]

/-- Exploding a list or a map under a named operator is listing its members, unless it is a path
parameter and has an empty member: then, and only then, the two differ. -/
theorem exploded_eq_listed_iff (op : Operator) (named : op.isNamed = true) :
    (∀ (name : Text) (items : List Text),
      op.renderList name items true =
          Text.joined [op.joiner] (items.map fun item => op.renderString name item none) ↔
        (op = .pathParameter → [] ∉ items)) ∧
    (∀ (name : Text) (pairs : List (Text × Text)),
      op.renderMap name pairs true =
          Text.joined [op.joiner] (pairs.map fun pair => op.renderString pair.1 pair.2 none) ↔
        (op = .pathParameter → [] ∉ pairs.map Prod.snd)) ∧
    ∀ (name : Text) (pairs : List (Text × Text)) (whole members : Datum)
      (wholeBound membersBound : List (Datum × Binding)), pairs ≠ [] →
      (∀ v ∈ (⟨name, true, none⟩ : Varspec) :: pairs.map fun pair => ⟨pair.1, false, none⟩,
        v.Printable ∧ .ofChar '}' ∉ v.name) →
      whole.coerceBindings = .ok wholeBound → members.coerceBindings = .ok membersBound →
      Datum.environmentOf wholeBound name = some (.map pairs) →
      (∀ pair ∈ pairs, Datum.environmentOf membersBound pair.1 = some (.scalar pair.2)) →
      ∃ exploded listed,
        expandText (.text (Template.listing op [⟨name, true, none⟩]).text) whole =
          .ok exploded ∧
        expandText (.text (Template.listing op
          (pairs.map fun pair => ⟨pair.1, false, none⟩)).text) members = .ok listed ∧
        (exploded = listed ↔ (op = .pathParameter → [] ∉ pairs.map Prod.snd)) := by
  refine ⟨?_, ?_, ?_⟩
  · intro name items
    rw [Operator.renderList_explode named]
    have repeated := Operator.joined_renderString_eq_iff named (items.map (Prod.mk name))
    simpa only [List.map_map, Function.comp_def, List.map_id'] using repeated
  · intro name pairs
    rw [Operator.renderMap_explode]
    exact Operator.joined_renderString_eq_iff named pairs
  · intro name pairs whole members wholeBound membersBound nonempty printable wholeCoerced
      membersCoerced bound each
    rw [List.forall_mem_cons] at printable
    have exploded := expandText_listing named (List.cons_ne_nil _ _)
      (List.forall_mem_singleton.mpr printable.1) wholeCoerced
    have listed := expandText_listing named (List.map_eq_nil_iff.not.mpr nonempty) printable.2
      membersCoerced
    exact ⟨_, _, exploded, listed, Expression.expand_exploded_eq_iff named nonempty bound each⟩

theorem exploded_eq_listed_query :
    ∃ expanded, expandText (.text "\x7b?m*\x7d") (.mapping .plain [(.text "m",
        .mapping .plain [(.text "a", .text ""), (.text "b", .text "&")])]) = .ok expanded ∧
      expandText (.text "\x7b?a,b\x7d")
        (.mapping .plain [(.text "b", .text "&"), (.text "a", .text "")]) = .ok expanded := by
  have printable : ∀ v ∈ [(⟨"m", true, none⟩ : Varspec), ⟨"a", false, none⟩, ⟨"b", false, none⟩],
      v.Printable ∧ .ofChar '}' ∉ v.name := by
    simp only [List.mem_cons, List.not_mem_nil, or_false]
    rintro v (rfl | rfl | rfl) <;>
      exact ⟨⟨by decide, by decide, by decide, by decide⟩, by decide⟩
  obtain ⟨exploded, listed, expands, expandsListed, same⟩ :=
    (exploded_eq_listed_iff .query rfl).2.2 "m" [("a", ""), ("b", "&")]
      (.mapping .plain [(.text "m",
        .mapping .plain [(.text "a", .text ""), (.text "b", .text "&")])])
      (.mapping .plain [(.text "b", .text "&"), (.text "a", .text "")])
      [(.text "m", .map [("a", ""), ("b", "&")])]
      [(.text "b", .scalar "&"), (.text "a", .scalar "")]
      (by decide) printable rfl rfl (by simp only [Datum.environmentOf_cons]; decide)
      (by simp only [Datum.environmentOf_cons]; decide)
  rw [same.mpr fun parameter => absurd parameter (by decide)] at expands
  exact ⟨listed, expands, expandsListed⟩

/-- An empty path parameter is written `x`, and an empty member of an exploded one `x=`. -/
theorem exploded_ne_listed_pathParameter :
    Operator.pathParameter.renderList "x" [""] true ≠
      Text.joined [Operator.pathParameter.joiner]
        ([""].map fun item : Text => Operator.pathParameter.renderString "x" item none) := by
  decide

end UriTemplate
