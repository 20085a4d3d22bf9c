import UriTemplate.Proofs.Datum.Environment
import UriTemplate.Proofs.Expansion.Basic

/-!
What an expansion depends on. However the variables are supplied, each name of the template has one
value in effect, the last one given for it, and the expansion is determined by what these values
bind; the order of the entries, other names, keys that are not names and the way in which a value is
written make no difference.
-/

namespace UriTemplate

namespace Datum

def Coercible (value : Datum) : Prop := ∃ binding, value.toBinding? = .ok binding

instance : DecidablePred Coercible := fun value =>
  match made : value.toBinding? with
  | .ok bound => isTrue ⟨bound, made⟩
  | .error _ => isFalse fun ⟨_, other⟩ => nomatch made.symm.trans other

structure IsPair (item : Datum) (pair : Datum × Datum) : Prop where
  members : item.members? = some [pair.1, pair.2]
  hashable : pair.1.unhashable? = Option.none

/-- What is given for the variables consists of these keys and values: nothing, a mapping in which
no name occurs twice, or a sequence of pairs. -/
inductive Gives : Datum → List (Datum × Datum) → Prop
  | none : Gives .none []
  | mapping (kind : MappingKind) {entries : List (Datum × Datum)}
      (distinct : ((named entries).map Prod.fst).Nodup) : Gives (.mapping kind entries) entries
  | list {items : List Datum} {pairs : List (Datum × Datum)}
      (each : List.Forall₂ IsPair items pairs) : Gives (.list items) pairs
  | tuple {items : List Datum} {pairs : List (Datum × Datum)}
      (each : List.Forall₂ IsPair items pairs) : Gives (.tuple items) pairs

/-- The value in effect for a name: the override, or else the last value among the pairs. -/
def effective (pairs : List (Datum × Datum)) (overrides : List (Text × Datum)) (name : Text) :
    Option Datum :=
  (overrides.reverse.lookup name).or ((named pairs).reverse.lookup name)

/-- The entries of a mapping in which each name has the value that it has in effect. -/
structure Merges (entries : List (Datum × Datum)) (values : Text → Option Datum) : Prop where
  distinct : ((named entries).map Prod.fst).Nodup
  found : ∀ name, (named entries).lookup name = values name
  coercible : ∀ entry ∈ entries, entry.2.Coercible

theorem Merges.exists_coerceEntries {entries : List (Datum × Datum)} {values : Text → Option Datum}
    (merges : Merges entries values) :
    ∃ bound, coerceEntries entries = .ok bound ∧
      ∀ name, boundTo? (values name) = .ok (environmentOf bound name) := by
  obtain ⟨bound, coerced⟩ := Datum.exists_coerceEntries merges.coercible
  refine ⟨bound, coerced, fun name => ?_⟩
  rw [← merges.found name]
  exact boundTo?_lookup merges.distinct coerced name

theorem Merges.putAll {entries pairs : List (Datum × Datum)} {values : Text → Option Datum}
    (merges : Merges entries values) (coercible : ∀ pair ∈ pairs, pair.2.Coercible) :
    Merges (Entries.putAll entries pairs)
      fun name => ((named pairs).reverse.lookup name).or (values name) where
  distinct := by
    rw [named_putAll]
    exact Entries.nodup_putAll merges.distinct _
  found name := by
    rw [named_putAll, Entries.lookup_putAll, merges.found]
  coercible := Entries.forall_value_putAll merges.coercible coercible

theorem merges_nil : Merges [] fun _ => Option.none :=
  ⟨List.nodup_nil, fun _ => rfl, List.forall_mem_nil _⟩

theorem putSequence_eq {items : List Datum} {pairs : List (Datum × Datum)}
    (each : List.Forall₂ IsPair items pairs) (position : Nat) (entries : List (Datum × Datum)) :
    putSequence position entries items = .ok (Entries.putAll entries pairs) := by
  induction each generalizing position entries with
  | nil => rfl
  | @cons item pair items pairs isPair _ ih =>
      rw [putSequence, pairAt, isPair.members]
      change (pair.1.asKey >>= _) = _
      rw [asKey, isPair.hashable]
      exact ih (position + 1) _

theorem Gives.exists_assignments {vars : Datum} {pairs : List (Datum × Datum)}
    (gives : Gives vars pairs) (coercible : ∀ pair ∈ pairs, pair.2.Coercible) :
    ∃ entries, vars.assignments = .ok entries ∧
      Merges entries fun name => (named pairs).reverse.lookup name := by
  have put : Merges (Entries.putAll [] pairs) fun name => (named pairs).reverse.lookup name := by
    simpa only [Option.or_none] using merges_nil.putAll coercible
  cases gives with
  | none => exact ⟨[], rfl, merges_nil⟩
  | mapping kind distinct =>
      refine ⟨pairs, assignments_mapping kind pairs, distinct, fun name => ?_, coercible⟩
      exact (Entries.lookup_reverse distinct name).symm
  | list each =>
      refine ⟨_, ?_, put⟩
      rw [← putSequence_eq each 0 []]
      cases each <;> rfl
  | tuple each =>
      refine ⟨_, ?_, put⟩
      rw [← putSequence_eq each 0 []]
      cases each <;> rfl

/-- The variables are supplied by what is given and by overrides, and all values can be bound. -/
structure Supplies (vars : Datum) (overrides : List (Text × Datum)) (pairs : List (Datum × Datum)) :
    Prop where
  gives : Gives vars pairs
  coercible : ∀ value ∈ pairs.map Prod.snd ++ overrides.map Prod.snd, value.Coercible

theorem Supplies.exists_merges {vars : Datum} {overrides : List (Text × Datum)}
    {pairs : List (Datum × Datum)} (supplies : Supplies vars overrides pairs) :
    ∃ entries, vars.assignments = .ok entries ∧
      Merges (Entries.putAll entries (overrides.map fun entry => (text entry.1, entry.2)))
        (effective pairs overrides) := by
  have coercible := List.forall_mem_append.mp supplies.coercible
  rw [List.forall_mem_map, List.forall_mem_map] at coercible
  obtain ⟨entries, assigned, merges⟩ := supplies.gives.exists_assignments coercible.1
  refine ⟨entries, assigned, ?_⟩
  have overriding : ∀ pair ∈ overrides.map fun entry => (text entry.1, entry.2),
      pair.2.Coercible := List.forall_mem_map.mpr coercible.2
  have overridden := merges.putAll overriding
  rwa [named_texts] at overridden

def isPlain : Datum → Bool
  | bool _ | int _ | float _ | text _ | octets _ | template _ => true
  | _ => false

theorem toBinding?_of_isPlain {value : Datum} (plain : value.isPlain = true) :
    value.toBinding? = value.scalarOf.map some := by
  cases value <;> first | exact absurd plain Bool.false_ne_true | simp only [toBinding?]

/-- An explicit form of a value: what it is coerced to, or what is made of it directly, for a
mapping also from a list of its pairs. -/
inductive Explicit : Datum → Binding → Prop
  | coerced {value : Datum} {binding : Binding} (made : value.toBinding? = .ok (some binding)) :
      Explicit value binding
  | scalar {value : Datum} {binding : Binding} (plain : value.isPlain = true)
      (made : value.scalarOf = .ok binding) : Explicit value binding
  | list {items : List Datum} {binding : Binding} (made : (list items).listOf = .ok binding) :
      Explicit (.list items) binding
  | tuple {items : List Datum} {binding : Binding} (made : (tuple items).listOf = .ok binding) :
      Explicit (.tuple items) binding
  | mapping (kind : MappingKind) {entries : List (Datum × Datum)} {binding : Binding}
      (made : (mapping kind entries).mapOf = .ok binding) : Explicit (.mapping kind entries) binding
  | pairs (kind : MappingKind) {items : List Datum} {entries : List (Datum × Datum)}
      {binding : Binding}
      (each : List.Forall₂ (fun item entry => item.members? = some [entry.1, entry.2]) items entries)
      (made : (list items).mapOf = .ok binding) : Explicit (.mapping kind entries) binding

theorem mapOf_pairs (kind : MappingKind) {items : List Datum} {entries : List (Datum × Datum)}
    (each : List.Forall₂ (fun item entry => item.members? = some [entry.1, entry.2]) items entries) :
    (list items).mapOf = (mapping kind entries).mapOf := by
  have same : (items.mapM fun item => item.pair >>= displayPair) = entries.mapM displayPair := by
    induction each with
    | nil => rfl
    | @cons item entry items entries members _ ih =>
        have unpacked : item.pair = .ok entry := by rw [pair, members]
        rw [List.mapM_cons, List.mapM_cons, ih, unpacked]
        rfl
  change ((items.mapM fun item => item.pair >>= displayPair) >>= _) = _
  rw [same]
  rfl

theorem Explicit.toBinding?_eq {value : Datum} {binding : Binding}
    (explicit : Explicit value binding) : value.toBinding? = .ok (some binding) := by
  cases explicit with
  | coerced made => exact made
  | scalar plain made =>
      rw [toBinding?_of_isPlain plain, made]
      rfl
  | list made => exact congrArg (Except.map some) made
  | tuple made => exact congrArg (Except.map some) made
  | mapping kind made => exact congrArg (Except.map some) made
  | pairs kind each made =>
      rw [mapOf_pairs kind each] at made
      exact congrArg (Except.map some) made

end Datum

theorem Template.exists_expandWith_of_supplies (t : Template) {vars : Datum}
    {overrides : List (Text × Datum)} {pairs : List (Datum × Datum)}
    (supplies : Datum.Supplies vars overrides pairs) :
    ∃ environment, t.expandWith vars overrides = t.expand environment ∧
      ∀ name, Datum.boundTo? (Datum.effective pairs overrides name) = .ok (environment name) := by
  obtain ⟨entries, assigned, merges⟩ := supplies.exists_merges
  obtain ⟨bound, coerced, found⟩ := merges.exists_coerceEntries
  exact ⟨Datum.environmentOf bound, expandWith_eq assigned coerced, found⟩

/-- The three ways of expanding a template give one text, that of the values in effect. Variables
that bind the names of the template alike give the same text, and an explicit form of a value binds
what the value does. -/
theorem expand_of_effective (t : Text) (names : List Text)
    (listed : «variables» (.text t) = .ok names) :
    (∀ (vars : Datum) (overrides : List (Text × Datum)) (pairs : List (Datum × Datum)),
      Datum.Supplies vars overrides pairs →
      ∃ expanded, expand (.text t) vars overrides = .ok expanded ∧
        (∃ made, Template.new (.text t) = .ok made ∧
          made.expandWith vars overrides = .ok expanded) ∧
        ∀ (kind : MappingKind) (entries : List (Datum × Datum)),
          Datum.Merges entries (Datum.effective pairs overrides) →
          expandText (.text t) (.mapping kind entries) = .ok expanded) ∧
    (∀ (vars others : Datum) (overrides otherOverrides : List (Text × Datum))
      (pairs otherPairs : List (Datum × Datum)),
      Datum.Supplies vars overrides pairs → Datum.Supplies others otherOverrides otherPairs →
      (∀ name ∈ names, Datum.boundTo? (Datum.effective pairs overrides name) =
        Datum.boundTo? (Datum.effective otherPairs otherOverrides name)) →
      expand (.text t) vars overrides = expand (.text t) others otherOverrides) ∧
    ∀ (value : Datum) (binding : Binding), value.Explicit binding →
      Datum.boundTo? (some (.binding binding)) = Datum.boundTo? (some value) := by
  change Template.variables ⟨t⟩ = .ok names at listed
  refine ⟨?_, ?_, ?_⟩
  · intro vars overrides pairs supplies
    obtain ⟨environment, expands, bound⟩ := Template.exists_expandWith_of_supplies ⟨t⟩ supplies
    obtain ⟨segments, parsed, _⟩ := Template.exists_segments listed
    have whole := expands.trans (Template.expand_eq parsed)
    refine ⟨_, whole, ⟨⟨t⟩, rfl, whole⟩, ?_⟩
    intro kind entries merges
    obtain ⟨entriesBound, coerced, found⟩ := merges.exists_coerceEntries
    have same : Datum.environmentOf entriesBound = environment := by
      funext name
      exact Except.ok.inj ((found name).symm.trans (bound name))
    rw [expandText_text ((Datum.coerceBindings_mapping kind entries).trans coerced), same]
    exact Template.expand_eq parsed
  · intro vars others overrides otherOverrides pairs otherPairs supplies otherSupplies agree
    obtain ⟨environment, expands, bound⟩ := Template.exists_expandWith_of_supplies ⟨t⟩ supplies
    obtain ⟨other, otherExpands, otherBound⟩ :=
      Template.exists_expandWith_of_supplies ⟨t⟩ otherSupplies
    refine expands.trans (Eq.trans ?_ otherExpands.symm)
    apply Template.expand_congr listed
    intro name inside
    have same := agree name inside
    rw [bound name, otherBound name] at same
    exact Except.ok.inj same
  · intro value binding explicit
    exact explicit.toBinding?_eq.symm

theorem expand_of_effective_hidden :
    expand (.text "\x7b?a,b*\x7d\x7bc\x7d")
        (.list [.tuple [.text "a", .text "x"], .tuple [.bool true, .text "z"],
          .tuple [.text "a", .text "y"], .tuple [.text "c", .text "d"]])
        [("c", .none), ("b", .list [.text "&"])] = .ok "?a=y&b=%26" ∧
      expandText (.text "\x7b?a,b*\x7d\x7bc\x7d") (.mapping .view [(.text "b", .list [.text "&"]),
        (.bool true, .text "z"), (.text "c", .none), (.text "a", .text "y")]) = .ok "?a=y&b=%26" ∧
      expand (.text "\x7b?a,b*\x7d\x7bc\x7d") (.mapping .ordered
        [(.text "q", .bool true), (.text "b", .binding (.list ["&"]))])
        [("a", .binding (.scalar "y"))] = .ok "?a=y&b=%26" := by
  have listed : «variables» (.text "\x7b?a,b*\x7d\x7bc\x7d") = .ok ["a", "b", "c"] := by
    have parsed : Template.segments ⟨"\x7b?a,b*\x7d\x7bc\x7d"⟩ =
        .ok [.expression ⟨"?a,b*", .query, [⟨"a", false, none⟩, ⟨"b", true, none⟩]⟩,
          .expression ⟨"c", .simple, [⟨"c", false, none⟩]⟩] := by cbv
    exact Template.variables_eq parsed
  have supplies : Datum.Supplies
      (.list [.tuple [.text "a", .text "x"], .tuple [.bool true, .text "z"],
        .tuple [.text "a", .text "y"], .tuple [.text "c", .text "d"]])
      [("c", .none), ("b", .list [.text "&"])]
      [(.text "a", .text "x"), (.bool true, .text "z"), (.text "a", .text "y"),
        (.text "c", .text "d")] := by
    refine ⟨Datum.Gives.list ?_, by decide⟩
    exact .cons ⟨rfl, rfl⟩ (.cons ⟨rfl, rfl⟩ (.cons ⟨rfl, rfl⟩ (.cons ⟨rfl, rfl⟩ .nil)))
  have explicit : Datum.Supplies
      (.mapping .ordered [(.text "q", .bool true), (.text "b", .binding (.list ["&"]))])
      [("a", .binding (.scalar "y"))]
      [(.text "q", .bool true), (.text "b", .binding (.list ["&"]))] :=
    ⟨Datum.Gives.mapping .ordered (by decide), by decide⟩
  have merges : Datum.Merges [(.text "b", .list [.text "&"]), (.bool true, .text "z"),
      (.text "c", .none), (.text "a", .text "y")]
      (Datum.effective [(.text "a", .text "x"), (.bool true, .text "z"), (.text "a", .text "y"),
        (.text "c", .text "d")] [("c", .none), ("b", .list [.text "&"])]) := by
    refine ⟨by decide, fun name => ?_, by decide⟩
    change List.lookup name [("b", _), ("c", _), ("a", _)] =
      (List.lookup name [("b", _), ("c", _)]).or (List.lookup name [("c", _), ("a", _), ("a", _)])
    simp only [List.lookup_cons]
    cases name == "b" <;> cases name == "c" <;> cases name == "a" <;> rfl
  obtain ⟨same, determined, _⟩ := expand_of_effective "\x7b?a,b*\x7d\x7bc\x7d" _ listed
  obtain ⟨expanded, expands, _, merged⟩ := same _ _ _ supplies
  have written : expandText (.text "\x7b?a,b*\x7d\x7bc\x7d") (.mapping .view
      [(.text "b", .list [.text "&"]), (.bool true, .text "z"), (.text "c", .none),
        (.text "a", .text "y")]) = .ok "?a=y&b=%26" := by
    decide +kernel
  obtain rfl := Except.ok.inj ((merged .view _ merges).symm.trans written)
  refine ⟨expands, written, ?_⟩
  rw [← expands]
  refine (determined _ _ _ _ _ _ supplies explicit ?_).symm
  intro name inside
  simp only [List.mem_cons, List.not_mem_nil, or_false] at inside
  rcases inside with rfl | rfl | rfl <;> rfl

end UriTemplate
