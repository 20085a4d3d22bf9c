import UriTemplate.Proofs.Expansion.Pieces
import UriTemplate.Proofs.Template.Printing

/-!
A list of variables divided over two expressions. Where the lead of an operator is its joiner, what
a second expression expands to continues the first as further variables would, as long as nothing
that is contributed is blank. A query writes no blank contributions, and its continuation continues
it once it has begun.
-/

namespace UriTemplate

namespace Operator

variable {op : Operator} {name : Text}

def mark (op : Operator) (list : Text) : Text := op.marker?.toList ++ list

theorem renderString_ne_nil (named : op.isNamed = true) (other : op ≠ .pathParameter) (value : Text)
    (maxLength : Option Int) : op.renderString name value maxLength ≠ [] := by
  rw [renderString, if_neg fun bare => other bare.1, if_pos named]
  simp [Operator.named]

theorem labelled_ne_nil (named : op.isNamed = true) (rendered : Text) :
    op.labelled name rendered ≠ [] := by
  rw [labelled_of_isNamed named]
  simp [Operator.named]

theorem renderPair_ne_nil (explode : Bool) (pair : Text × Text) : op.renderPair explode pair ≠ [] :=
  List.append_ne_nil_of_right_ne_nil _ (List.cons_ne_nil _ _)

theorem renderList_ne_nil (named : op.isNamed = true) {items : List Text} (members : items ≠ [])
    (explode : Bool) : op.renderList name items explode ≠ [] := by
  rw [renderList_eq]
  split
  · apply Text.joined_ne_nil (List.map_eq_nil_iff.not.mpr members)
    exact List.forall_mem_map.mpr fun item _ => labelled_ne_nil named _
  · exact labelled_ne_nil named _

theorem renderMap_ne_nil (named : op.isNamed = true) {pairs : List (Text × Text)}
    (members : pairs ≠ []) (explode : Bool) : op.renderMap name pairs explode ≠ [] := by
  rw [renderMap_eq]
  split
  · apply Text.joined_ne_nil (List.map_eq_nil_iff.not.mpr members)
    exact List.forall_mem_map.mpr fun pair _ => renderPair_ne_nil true pair
  · exact labelled_ne_nil named _

theorem render_ne_blank (named : op.isNamed = true) (other : op ≠ .pathParameter)
    (noList : op.omitsEmptyList = true) (noMap : op.omitsEmptyMap = true) (binding : Option Binding)
    (explode : Bool) (maxLength : Option Int) :
    op.render name binding explode maxLength ≠ some [] := by
  match binding with
  | none => exact (Option.some_ne_none []).symm
  | some (.scalar value) =>
      rw [render, Ne, Option.some.injEq]
      exact renderString_ne_nil named other value maxLength
  | some (.list items) =>
      rw [render, noList, Bool.and_true]
      split
      · exact (Option.some_ne_none []).symm
      · rename_i members
        rw [Ne, Option.some.injEq]
        exact renderList_ne_nil named (by simpa using members) explode
  | some (.map pairs) =>
      rw [render, noMap, Bool.and_true]
      split
      · exact (Option.some_ne_none []).symm
      · rename_i members
        rw [Ne, Option.some.injEq]
        exact renderMap_ne_nil named (by simpa using members) explode

theorem render_query (binding : Option Binding) (explode : Bool) (maxLength : Option Int) :
    query.render name binding explode maxLength =
      continuation.render name binding explode maxLength := by
  match binding with
  | none => rfl
  | some (.scalar value) => rfl
  | some (.list items) => rfl
  | some (.map pairs) => rfl

end Operator

namespace Expression

variable {op next : Operator} {environment : Environment}

def Blankless (contributions : List Text) : Prop :=
  ∀ contribution ∈ contributions, contribution ≠ []

theorem assemble_of_blankless {contributions : List Text} (blankless : Blankless contributions)
    (some : contributions ≠ []) :
    assemble op contributions = op.lead ++ Text.joined [op.joiner] contributions := by
  obtain ⟨first, others, rfl⟩ := List.exists_cons_of_ne_nil some
  exact assemble_of_mem List.mem_cons_self (blankless first List.mem_cons_self)

theorem assemble_eq_nil_iff {contributions : List Text} (blankless : Blankless contributions) :
    assemble op contributions = [] ↔ contributions = [] := by
  constructor
  · intro empty
    by_cases some : contributions = []
    · exact some
    · rw [assemble_of_blankless blankless some] at empty
      exact absurd (List.append_eq_nil_iff.mp empty).2 (Text.joined_ne_nil some blankless)
  · rintro rfl
    rfl

theorem assemble_append (linked : next.lead = [op.joiner]) (joiner : next.joiner = op.joiner)
    {first second : List Text} (begun : first ≠ []) (firstBlankless : Blankless first)
    (secondBlankless : Blankless second) :
    assemble op (first ++ second) = assemble op first ++ assemble next second := by
  by_cases last : second = []
  · rw [last, List.append_nil]
    exact (List.append_nil _).symm
  · have all : Blankless (first ++ second) :=
      List.forall_mem_append.mpr ⟨firstBlankless, secondBlankless⟩
    rw [assemble_of_blankless all (List.append_ne_nil_of_left_ne_nil begun second),
      assemble_of_blankless firstBlankless begun, assemble_of_blankless secondBlankless last,
      Text.joined_append begun last, linked, joiner]
    simp only [List.append_assoc]

variable {first second : List Varspec} {body firstBody secondBody : Text}

theorem blankless_contributions {varspecs : List Varspec}
    (each : ∀ v ∈ varspecs, v.render op environment ≠ some []) :
    Blankless (contributions ⟨body, op, varspecs⟩ environment) := by
  rintro _ member rfl
  obtain ⟨v, listed, rendered⟩ := List.mem_filterMap.mp member
  exact each v listed rendered

theorem expand_append (linked : op.lead = [op.joiner])
    (each : ∀ v ∈ first ++ second, v.render op environment ≠ some []) :
    expand ⟨body, op, first ++ second⟩ environment =
      expand ⟨firstBody, op, first⟩ environment ++ expand ⟨secondBody, op, second⟩ environment := by
  rw [List.forall_mem_append] at each
  have firstBlankless : Blankless (contributions ⟨firstBody, op, first⟩ environment) :=
    blankless_contributions each.1
  have secondBlankless : Blankless (contributions ⟨secondBody, op, second⟩ environment) :=
    blankless_contributions each.2
  have divided : contributions ⟨body, op, first ++ second⟩ environment =
      contributions ⟨firstBody, op, first⟩ environment ++
        contributions ⟨secondBody, op, second⟩ environment := List.filterMap_append
  rw [expand, divided]
  -- With nothing in front, the second part has the same lead as the whole.
  by_cases begun : contributions ⟨firstBody, op, first⟩ environment = []
  · rw [begun, List.nil_append, expand, begun]
    rfl
  · exact assemble_append linked rfl begun firstBlankless secondBlankless

theorem contributions_query (varspecs : List Varspec) :
    contributions ⟨body, .query, varspecs⟩ environment =
      contributions ⟨body, .continuation, varspecs⟩ environment :=
  List.filterMap_congr fun _ _ => Operator.render_query _ _ _

theorem expand_query_append :
    expand ⟨body, .query, first ++ second⟩ environment =
      if expand ⟨firstBody, .query, first⟩ environment = [] then
        expand ⟨secondBody, .query, second⟩ environment
      else expand ⟨firstBody, .query, first⟩ environment ++
        expand ⟨secondBody, .continuation, second⟩ environment := by
  have blankless (varspecs : List Varspec) (body : Text) :
      Blankless (contributions ⟨body, .query, varspecs⟩ environment) :=
    blankless_contributions fun v _ => Operator.render_ne_blank rfl (by decide) rfl rfl _ _ _
  -- What is shown tells what is contributed, since nothing blank is.
  have begun : expand ⟨firstBody, .query, first⟩ environment = [] ↔
      contributions ⟨firstBody, .query, first⟩ environment = [] :=
    assemble_eq_nil_iff (blankless first firstBody)
  have continued : Blankless (contributions ⟨secondBody, .continuation, second⟩ environment) := by
    rw [← contributions_query second]
    exact blankless second secondBody
  have divided : contributions ⟨body, .query, first ++ second⟩ environment =
      contributions ⟨firstBody, .query, first⟩ environment ++
        contributions ⟨secondBody, .continuation, second⟩ environment := by
    rw [← contributions_query second]
    exact List.filterMap_append
  rw [expand, divided]
  split
  · rename_i nothing
    rw [begun.mp nothing, List.nil_append]
    exact congrArg (assemble .query) (contributions_query second).symm
  · rename_i something
    refine assemble_append ?linked ?joiner (mt begun.mpr something) (blankless first firstBody)
      continued
    case linked => rfl
    case joiner => rfl

structure Enclosable (e : Expression) : Prop where
  read : ofBody e.body = .ok e
  nonempty : e.body ≠ []
  unclosed : .ofChar '}' ∉ e.body

end Expression

structure Varspec.Listed (list : Text) (varspecs : List Varspec) : Prop where
  unclosed : .ofChar '}' ∉ list
  read : (Text.splitOn ',' list).mapM Varspec.ofText = .ok varspecs

namespace Varspec.Listed

variable {left right : Text} {first second : List Varspec}

theorem append (leftListed : Listed left first) (rightListed : Listed right second) :
    Listed (left ++ .ofChar ',' :: right) (first ++ second) where
  unclosed := by
    rw [List.mem_append, List.mem_cons]
    rintro (inLeft | comma | inRight)
    · exact leftListed.unclosed inLeft
    · exact absurd comma (by decide)
    · exact rightListed.unclosed inRight
  read := by
    rw [Text.splitOn_append_cons, mapM_eq_ok_iff]
    exact List.rel_append (mapM_eq_ok_iff.mp leftListed.read) (mapM_eq_ok_iff.mp rightListed.read)

variable {op : Operator} {list : Text} {varspecs : List Varspec}

theorem enclosable (listed : Listed list varspecs) (marked : op ≠ .simple) :
    Expression.Enclosable ⟨op.mark list, op, varspecs⟩ := by
  have parts : Expression.operatorAndList (op.mark list) = (op, list) :=
    Expression.operatorAndList_append fun simple => absurd simple marked
  have marker : op.marker?.toList ≠ [] ∧ .ofChar '}' ∉ op.marker?.toList := by
    cases op <;> first | decide | exact absurd rfl marked
  refine ⟨?_, List.append_ne_nil_of_left_ne_nil marker.1 list, ?_⟩
  · apply Expression.ofBody_eq_ok_iff.mpr
    rw [parts]
    exact ⟨rfl, rfl, listed.read⟩
  · change .ofChar '}' ∉ op.mark list
    rw [Operator.mark, List.mem_append, not_or]
    exact ⟨marker.2, listed.unclosed⟩

end Varspec.Listed

namespace Template

variable {environment : Environment}

def ofBodies (bodies : List Text) : Template :=
  ⟨(bodies.map Segment.expression).flatMap Segment.written⟩

theorem expand_ofBodies {expressions : List Expression}
    (each : ∀ e ∈ expressions, e.Enclosable) :
    (ofBodies (expressions.map Expression.body)).expand environment =
      .ok (expressions.flatMap fun e => e.expand environment) := by
  have canonical : Segment.Canonical ((expressions.map Expression.body).map .expression) := by
    induction expressions with
    | nil => exact .nil
    | cons e expressions ih =>
        rw [List.forall_mem_cons] at each
        exact .expression each.1.nonempty each.1.unclosed (ih each.2)
  have parsed : (ofBodies (expressions.map Expression.body)).segments =
      .ok (expressions.map .expression) := by
    rw [segments_eq_ok_iff, ofBodies, Segment.bodies_flatMap_written canonical, List.map_map,
      List.map_map]
    refine ⟨rfl, List.forall_mem_map.mpr fun e member => (each e member).read⟩
  rw [expand_eq parsed, List.flatMap_map]
  rfl

theorem expand_single {op : Operator} {list : Text} {varspecs : List Varspec}
    (marked : op ≠ .simple) (listed : Varspec.Listed list varspecs) :
    (ofBodies [op.mark list]).expand environment =
      .ok (Expression.expand ⟨op.mark list, op, varspecs⟩ environment) := by
  have readable : ∀ e ∈ [(⟨op.mark list, op, varspecs⟩ : Expression)], e.Enclosable :=
    List.forall_mem_singleton.mpr (listed.enclosable marked)
  exact (expand_ofBodies readable).trans (by rw [List.flatMap_singleton])

variable {left right : Text} {first second : List Varspec}

theorem expand_pair {op next : Operator} (marked : op ≠ .simple) (nextMarked : next ≠ .simple)
    (leftListed : Varspec.Listed left first) (rightListed : Varspec.Listed right second) :
    (ofBodies [op.mark left, next.mark right]).expand environment =
      .ok (Expression.expand ⟨op.mark left, op, first⟩ environment ++
        Expression.expand ⟨next.mark right, next, second⟩ environment) := by
  have readable : ∀ e ∈ [(⟨op.mark left, op, first⟩ : Expression), ⟨next.mark right, next, second⟩],
      e.Enclosable := by
    rw [List.forall_mem_cons, List.forall_mem_singleton]
    exact ⟨leftListed.enclosable marked, rightListed.enclosable nextMarked⟩
  exact (expand_ofBodies readable).trans (by rw [List.flatMap_cons, List.flatMap_singleton])

theorem expand_split_linked {op : Operator} (marked : op ≠ .simple) (linked : op.lead = [op.joiner])
    (leftListed : Varspec.Listed left first) (rightListed : Varspec.Listed right second)
    (each : ∀ v ∈ first ++ second, v.render op environment ≠ some []) :
    ∃ text, (ofBodies [op.mark (left ++ .ofChar ',' :: right)]).expand environment = .ok text ∧
      (ofBodies [op.mark left, op.mark right]).expand environment = .ok text := by
  refine ⟨_, expand_single marked (leftListed.append rightListed), ?_⟩
  rw [expand_pair marked marked leftListed rightListed, Expression.expand_append linked each]

/-- Listing variables in one expression or in two gives the same expansion. A continuation can be
split anywhere; the rest of a query becomes its continuation, or a query when nothing is shown
before; labels, path segments and path parameters can be split unless a contribution is blank. -/
theorem expand_split (environment : Environment) (left right : Text) (first second : List Varspec)
    (leftListed : Varspec.Listed left first) (rightListed : Varspec.Listed right second) :
    (∃ text,
      (ofBodies [Operator.continuation.mark (left ++ .ofChar ',' :: right)]).expand environment =
        .ok text ∧
      (ofBodies [Operator.continuation.mark left, Operator.continuation.mark right]).expand
        environment = .ok text) ∧
    (∃ begun text, (ofBodies [Operator.query.mark left]).expand environment = .ok begun ∧
      (ofBodies [Operator.query.mark (left ++ .ofChar ',' :: right)]).expand environment =
        .ok text ∧
      (begun ≠ [] →
        (ofBodies [Operator.query.mark left, Operator.continuation.mark right]).expand
          environment = .ok text) ∧
      (begun = [] → (ofBodies [Operator.query.mark right]).expand environment = .ok text)) ∧
    ∀ op : Operator, op = .label ∨ op = .pathSegment ∨ op = .pathParameter →
      (∀ v ∈ first ++ second, v.render op environment ≠ some []) →
      ∃ text, (ofBodies [op.mark (left ++ .ofChar ',' :: right)]).expand environment = .ok text ∧
        (ofBodies [op.mark left, op.mark right]).expand environment = .ok text := by
  refine ⟨?_, ?_, ?_⟩
  · apply expand_split_linked (by decide) rfl leftListed rightListed
    exact fun v _ => Operator.render_ne_blank rfl (by decide) rfl rfl _ _ _
  · refine ⟨_, _, expand_single (by decide) leftListed,
      expand_single (by decide) (leftListed.append rightListed), ?_, ?_⟩
    · intro shown
      rw [expand_pair (by decide) (by decide) leftListed rightListed,
        Expression.expand_query_append, if_neg shown]
    · intro hidden
      rw [expand_single (by decide) rightListed, Expression.expand_query_append, if_pos hidden]
  · intro op positional each
    have marked : op ≠ .simple ∧ op.lead = [op.joiner] := by
      rcases positional with rfl | rfl | rfl <;> decide
    exact expand_split_linked marked.1 marked.2 leftListed rightListed each

theorem expand_split_hidden :
    (ofBodies [Operator.query.mark "a,b*,c:1"]).expand (fun name =>
        if name = "b" then some (.list []) else if name = "c" then some (.scalar "&=") else none) =
      .ok "?c=%26" ∧
    (ofBodies [Operator.query.mark "c:1"]).expand (fun name =>
        if name = "b" then some (.list []) else if name = "c" then some (.scalar "&=") else none) =
      .ok "?c=%26" ∧
    (ofBodies [Operator.label.mark "a,b*,c:1"]).expand (fun name =>
        if name = "b" then some (.list []) else if name = "c" then some (.scalar "&=") else none) =
      .ok ".%26" ∧
    (ofBodies [Operator.label.mark "a,b*", Operator.label.mark "c:1"]).expand (fun name =>
        if name = "b" then some (.list []) else if name = "c" then some (.scalar "&=") else none) =
      .ok ".%26" := by
  have leftListed : Varspec.Listed "a,b*" [⟨"a", false, none⟩, ⟨"b", true, none⟩] :=
    ⟨by decide, rfl⟩
  have rightListed : Varspec.Listed "c:1" [⟨"c", false, some 1⟩] := ⟨by decide, rfl⟩
  obtain ⟨_, ⟨begun, text, begins, whole, _, hidden⟩, linked⟩ := expand_split
    (fun name => if name = "b" then some (.list [])
      else if name = "c" then some (.scalar "&=") else none) _ _ _ _ leftListed rightListed
  obtain ⟨labels, labelled, divided⟩ := linked .label (Or.inl rfl) (by decide)
  have nothing : begun = [] := by
    rw [expand_single (by decide) leftListed] at begins
    exact (Except.ok.inj begins).symm.trans (by decide)
  obtain rfl : text = "?c=%26" := by
    rw [expand_single (by decide) (leftListed.append rightListed)] at whole
    exact (Except.ok.inj whole).symm.trans (by decide)
  obtain rfl : labels = ".%26" := by
    rw [expand_single (by decide) (leftListed.append rightListed)] at labelled
    exact (Except.ok.inj labelled).symm.trans (by decide)
  exact ⟨whole, hidden nothing, labelled, divided⟩

end Template

end UriTemplate
