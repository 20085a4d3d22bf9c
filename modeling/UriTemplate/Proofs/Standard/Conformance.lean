import UriTemplate.Expansion
import UriTemplate.Proofs.Operator.Encoding
import UriTemplate.Proofs.Standard.Algorithm
import UriTemplate.Proofs.Standard.Grammar

/-!
Where expansion follows the standard's algorithm. On bodies of the standard's grammar, and on
bindings for which the two do not differ by design, expansion gives what the algorithm gives, but for
the keys that an exploded map puts in the place of names: these are encoded like values, not like
literals.
-/

namespace UriTemplate.Standard

def HasEscape (t : Text) : Prop :=
  ∃ before percent high low after, t = before ++ percent :: high :: low :: after ∧
    (Percent.escaped? percent high low).isSome = true

theorem HasEscape.append_right {s : Text} (escape : HasEscape s) (t : Text) : HasEscape (s ++ t) := by
  obtain ⟨before, percent, high, low, after, rfl, escaped⟩ := escape
  exact ⟨before, percent, high, low, after ++ t, by simp, escaped⟩

theorem HasEscape.cons {t : Text} (escape : HasEscape t) (c : CodePoint) : HasEscape (c :: t) := by
  obtain ⟨before, percent, high, low, after, rfl, escaped⟩ := escape
  exact ⟨c :: before, percent, high, low, after, rfl, escaped⟩

theorem percent_mem_of_hasEscape {t : Text} (escape : HasEscape t) : .ofChar '%' ∈ t := by
  obtain ⟨before, percent, high, low, after, rfl, escaped⟩ := escape
  by_cases sign : percent = .ofChar '%'
  · simp [sign]
  · rw [Percent.escaped?_of_ne sign] at escaped
    exact absurd escaped Bool.false_ne_true

theorem encodeLiteral_eq {t : Text} (free : ¬ HasEscape t) :
    encodeLiteral t = Percent.encode reserved t := by
  fun_induction encodeLiteral t with
  | case1 percent high low rest escaped ih =>
      exact absurd ⟨[], percent, high, low, rest, rfl, escaped⟩ free
  | case2 percent high low rest _ ih =>
      rw [ih fun escape => free (escape.cons percent)]
      rfl
  | case3 c rest _ ih =>
      rw [ih fun escape => free (escape.cons c)]
      rfl
  | case4 => rfl

theorem encode_congr {left right t : Text} (same : ∀ c ∈ t, c ∈ left ↔ c ∈ right) :
    Percent.encode left t = Percent.encode right t := by
  apply List.flatMap_congr
  intro c member
  have contains : left.contains c = right.contains c := by
    rw [Bool.eq_iff_iff, List.contains_iff_mem, List.contains_iff_mem]
    exact same c member
  rw [Percent.encodePoint, Percent.encodePoint, contains]

/-- Encoded the same way in a literal and in a value of a strict operator. -/
def Plain (t : Text) : Prop := (∀ c ∈ t, c ∉ reserved) ∧ ¬ HasEscape t

theorem encodeLiteral_of_plain {t : Text} (plain : Plain t) :
    encodeLiteral t = Percent.encode [] t := by
  rw [encodeLiteral_eq plain.2]
  apply encode_congr
  intro c member
  simp [plain.1 c member]

theorem plain_of_unreserved {t : Text} (each : ∀ c ∈ t, Percent.isUnreserved c = true) :
    Plain t := by
  have marks : ∀ c ∈ reserved, Percent.isUnreserved c = false := by decide
  constructor
  · intro c member listed
    exact Bool.false_ne_true ((marks c listed).symm.trans (each c member))
  · intro escape
    exact absurd (each _ (percent_mem_of_hasEscape escape)) (by decide)

def Ordinary (op : Operator) (t : Text) : Prop :=
  (op = .reserved ∨ op = .fragment → ¬ HasEscape t) ∧
    (op = .fragment → ∀ c ∈ t, c ≠ .ofChar '#' ∧ c ≠ .ofChar '[' ∧ c ≠ .ofChar ']')

theorem Ordinary.of_append {op : Operator} {s t : Text} (ordinary : Ordinary op (s ++ t)) :
    Ordinary op s :=
  ⟨fun allows escape => ordinary.1 allows (escape.append_right t),
    fun fragment c member => ordinary.2 fragment c (List.mem_append_left t member)⟩

theorem encode_eq {op : Operator} {t : Text} (ordinary : Ordinary op t) :
    (row op).encode t = op.encode t := by
  cases op with
  | reserved => exact encodeLiteral_eq (ordinary.1 (Or.inl rfl))
  | fragment =>
      have literal : (row .fragment).encode t = Percent.encode reserved t :=
        encodeLiteral_eq (ordinary.1 (Or.inr rfl))
      rw [literal]
      apply encode_congr
      intro c member
      obtain ⟨noHash, noOpening, noClosing⟩ := ordinary.2 rfl c member
      have splits : ∀ d ∈ reserved, d ∈ Operator.fragment.allowed ∨ d = .ofChar '#' ∨
          d = .ofChar '[' ∨ d = .ofChar ']' := by decide
      have within : ∀ d ∈ Operator.fragment.allowed, d ∈ reserved := by decide
      constructor
      · intro listed
        exact (splits c listed).resolve_right (by simp [noHash, noOpening, noClosing])
      · exact within c
  | simple | label | pathSegment | pathParameter | query | continuation => rfl

section

variable {op : Operator} {v : Varspec}

theorem row_eq (op : Operator) :
    (row op).first = op.lead ∧ (row op).sep = [op.joiner] ∧ (row op).named = op.isNamed := by
  cases op <;> exact ⟨rfl, rfl, rfl⟩

theorem ifemp_eq (named : op.isNamed = true) (other : op ≠ .pathParameter) :
    (row op).ifemp = [.ofChar '='] := by
  cases op <;> first | rfl | exact absurd rfl other | exact absurd named Bool.false_ne_true

theorem assign_eq (named : op.isNamed = true) (name : Text) {isEmpty : Bool} {written : Text}
    (known : isEmpty = true → written = [] ∧ op ≠ .pathParameter) :
    (row op).assign name isEmpty written = name ++ .ofChar '=' :: written := by
  unfold Row.assign
  cases isEmpty with
  | true => rw [(known rfl).1, if_pos rfl, ifemp_eq named (known rfl).2]
  | false => rw [if_neg Bool.false_ne_true]

theorem label_eq (name : Plain v.name) {isEmpty : Bool} {written : Text}
    (known : isEmpty = true → written = [] ∧ op ≠ .pathParameter) :
    (row op).label v isEmpty written =
      if op.isNamed then op.named v.name written else written := by
  unfold Row.label
  rw [(row_eq op).2.2]
  split
  · rename_i named
    rw [assign_eq named _ known, encodeLiteral_of_plain name, Operator.named, Operator.encode,
      Operator.allowed_of_isNamed named]
  · rfl

theorem writeScalar_eq (name : Plain v.name) {value : Text} (ordinary : Ordinary op value) :
    (row op).writeScalar v value = op.renderString v.name value (v.maxLength.map Int.ofNat) := by
  have shown : Ordinary op (v.shown value) := by
    obtain ⟨rest, whole⟩ := v.shown_append value
    rw [whole] at ordinary
    exact ordinary.of_append
  unfold Row.writeScalar Operator.renderString
  rw [encode_eq shown, Varspec.renderScalar_eq]
  by_cases bare : op = .pathParameter ∧ value = []
  · obtain ⟨rfl, rfl⟩ := bare
    rw [if_pos ⟨rfl, rfl⟩]
    change encodeLiteral v.name ++ [] = Percent.encode [] v.name
    rw [List.append_nil, encodeLiteral_of_plain name]
  · rw [if_neg bare]
    apply label_eq name
    intro empty
    rw [List.isEmpty_iff] at empty
    rw [empty, Varspec.shown_nil]
    exact ⟨rfl, fun parameter => bare ⟨parameter, empty⟩⟩

theorem writeList_eq (name : Plain v.name) {items : List Text} (members : items ≠ [])
    (ordinary : ∀ item ∈ items, Ordinary op item) (parameter : op = .pathParameter → [] ∉ items) :
    (row op).writeList v items = op.renderList v.name items v.explode := by
  have encoded : items.map (row op).encode = items.map op.encode :=
    List.map_congr_left fun item listed => encode_eq (ordinary item listed)
  unfold Row.writeList Operator.renderList Operator.separator
  cases v.explode with
  | true =>
      have each : items.map (fun item => (row op).label v item.isEmpty ((row op).encode item)) =
          items.map fun item => if op.isNamed then op.named v.name (op.encode item)
            else op.encode item := by
        apply List.map_congr_left
        intro item listed
        rw [encode_eq (ordinary item listed)]
        apply label_eq name
        intro empty
        rw [List.isEmpty_iff] at empty
        subst empty
        exact ⟨rfl, fun isParameter => parameter isParameter listed⟩
      rw [if_pos rfl, if_pos rfl, if_pos rfl, (row_eq op).2.1, each]
      split <;> rfl
  | false =>
      rw [if_neg Bool.false_ne_true, if_neg Bool.false_ne_true, if_neg Bool.false_ne_true, encoded,
        label_eq name fun empty => absurd (List.isEmpty_iff.mp empty) members]

theorem writeMap_eq (name : Plain v.name) {pairs : List (Text × Text)} (members : pairs ≠ [])
    (ordinary : ∀ pair ∈ pairs, Ordinary op pair.1 ∧ Ordinary op pair.2)
    (parameter : op = .pathParameter → ∀ pair ∈ pairs, pair.2 ≠ []) :
    (row op).writeMap (row op).encode v pairs = op.renderMap v.name pairs v.explode := by
  unfold Row.writeMap Operator.renderMap Operator.separator
  cases v.explode with
  | true =>
      have each : (pairs.map fun pair =>
            if (row op).named then
              (row op).assign ((row op).encode pair.1) pair.2.isEmpty ((row op).encode pair.2)
            else (row op).encode pair.1 ++ .ofChar '=' :: (row op).encode pair.2) =
          pairs.map (op.renderPair true) := by
        apply List.map_congr_left
        intro pair listed
        rw [encode_eq (ordinary pair listed).1, encode_eq (ordinary pair listed).2]
        rw [(row_eq op).2.2]
        split
        · rename_i named
          rw [assign_eq named]
          · rfl
          · intro empty
            rw [List.isEmpty_iff] at empty
            rw [empty]
            exact ⟨rfl, fun isParameter => parameter isParameter pair listed empty⟩
        · rfl
      simp only [if_true, (row_eq op).2.1, each, Bool.not_true, Bool.and_false,
        Bool.false_eq_true, if_false]
  | false =>
      have each : (pairs.map fun pair =>
            (row op).encode pair.1 ++ .ofChar ',' :: (row op).encode pair.2) =
          pairs.map (op.renderPair false) := by
        apply List.map_congr_left
        intro pair listed
        rw [encode_eq (ordinary pair listed).1, encode_eq (ordinary pair listed).2]
        rfl
      rw [if_neg Bool.false_ne_true, if_neg Bool.false_ne_true, each, Bool.not_false, Bool.and_true,
        label_eq name fun empty => absurd (List.isEmpty_iff.mp empty) members]

end

/-- The bodies and the bindings for which expansion is meant to follow the algorithm. Lists and maps
have members, lengths are given to scalars only, not everything that is written is empty, and no
member of a path parameter is empty. -/
structure CommonDomain (op : Operator) (varspecs : List Varspec) (environment : Environment) :
    Prop where
  grammatical : Grammatical varspecs
  scalars : ∀ v ∈ varspecs, ∀ bound ∈ environment v.name, ∀ t ∈ bound.texts, t.hasSurrogate = false
  members : ∀ v ∈ varspecs, environment v.name ≠ some (.list []) ∧ environment v.name ≠ some (.map [])
  lengths : ∀ v ∈ varspecs, v.maxLength ≠ none →
    ∀ bound ∈ environment v.name, ∃ value, bound = .scalar value
  contributes : (∀ v ∈ varspecs, environment v.name = none) ∨
    ∃ v ∈ varspecs, ∃ contribution, v.render op environment = some contribution ∧ contribution ≠ []
  ordinary : ∀ v ∈ varspecs, ∀ bound ∈ environment v.name, ∀ t ∈ bound.texts, Ordinary op t
  parameter : op = .pathParameter → ∀ v ∈ varspecs,
    (∀ items, environment v.name = some (.list items) → [] ∉ items) ∧
      ∀ pairs, environment v.name = some (.map pairs) → ∀ pair ∈ pairs, pair.2 ≠ []

namespace CommonDomain

variable {op : Operator} {varspecs : List Varspec} {environment : Environment}

theorem plain (domain : CommonDomain op varspecs environment) {v : Varspec} (listed : v ∈ varspecs) :
    Plain v.name :=
  plain_of_unreserved (domain.grammatical.names v listed).unreserved

theorem render_eq (domain : CommonDomain op varspecs environment) {v : Varspec}
    (listed : v ∈ varspecs) :
    v.render op environment =
      (defined? (environment v.name)).map ((row op).write (row op).encode v) := by
  have name := domain.plain listed
  have members := domain.members v listed
  have ordinary := domain.ordinary v listed
  have parameter := fun isParameter => domain.parameter isParameter v listed
  unfold Varspec.render
  generalize environment v.name = binding at members ordinary parameter
  match binding with
  | none => rfl
  | some (.scalar value) =>
      have single : Ordinary op value := ordinary _ rfl value (List.mem_singleton_self value)
      exact congrArg some (writeScalar_eq name single).symm
  | some (.list []) => exact absurd rfl members.1
  | some (.map []) => exact absurd rfl members.2
  | some (.list (item :: items)) =>
      have written := writeList_eq name (List.cons_ne_nil item items) (ordinary _ rfl)
        fun isParameter => (parameter isParameter).1 _ rfl
      exact congrArg some written.symm
  | some (.map (pair :: pairs)) =>
      have each : ∀ member ∈ pair :: pairs, Ordinary op member.1 ∧ Ordinary op member.2 := by
        intro member listed
        have texts := Binding.mem_texts_map listed
        exact ⟨ordinary _ rfl _ texts.1, ordinary _ rfl _ texts.2⟩
      have written := writeMap_eq name (List.cons_ne_nil pair pairs) each
        fun isParameter => (parameter isParameter).2 _ rfl
      exact congrArg some written.symm

theorem contributions_eq (domain : CommonDomain op varspecs environment) :
    varspecs.filterMap (Varspec.render op environment) =
      (row op).written (row op).encode environment varspecs :=
  List.filterMap_congr fun _ listed => domain.render_eq listed

theorem expand_eq (domain : CommonDomain op varspecs environment) (body : Text) :
    Expression.expand ⟨body, op, varspecs⟩ environment =
      (row op).expand (row op).encode environment varspecs := by
  have contributions : Expression.contributions ⟨body, op, varspecs⟩ environment =
      (row op).written (row op).encode environment varspecs := domain.contributions_eq
  rw [Row.expand_eq, Expression.expand, contributions, Expression.assemble, (row_eq op).1,
    (row_eq op).2.1]
  rcases domain.contributes with absent | ⟨v, listed, contribution, rendered, nonempty⟩
  · have nothing : (row op).written (row op).encode environment varspecs = [] := by
      apply List.filterMap_eq_nil_iff.mpr
      intro v listed
      rw [absent v listed]
      rfl
    rw [nothing]
    rfl
  · have member : contribution ∈ (row op).written (row op).encode environment varspecs := by
      rw [← domain.contributions_eq]
      exact List.mem_filterMap.mpr ⟨v, listed, rendered⟩
    rw [if_neg, if_neg (List.ne_nil_of_mem member)]
    intro allEmpty
    exact nonempty (List.isEmpty_iff.mp (List.all_eq_true.mp allEmpty contribution member))

end CommonDomain

/-- The keys of exploded maps that stand for names are encoded alike in a literal and in a value. -/
def PlainKeys (op : Operator) (varspecs : List Varspec) (environment : Environment) : Prop :=
  op.isNamed = true → ∀ v ∈ varspecs, v.explode = true →
    ∀ pairs, environment v.name = some (.map pairs) → ∀ pair ∈ pairs, Plain pair.1

theorem encode_of_isNamed {op : Operator} (named : op.isNamed = true) (t : Text) :
    (row op).encode t = Percent.encode [] t := by
  cases op <;> first | rfl | exact absurd named Bool.false_ne_true

/-- Expansion gives what the algorithm gives with the keys of exploded maps encoded like values, and
what it gives without any change when these keys are plain. -/
theorem expand_conforms (op : Operator) (varspecs : List Varspec) (environment : Environment)
    (domain : CommonDomain op varspecs environment) :
    ∃ e, Expression.ofBody (Expression.bodyOf op varspecs) = .ok e ∧
      e.expand environment = (row op).expand (row op).encode environment varspecs ∧
      (PlainKeys op varspecs environment →
        e.expand environment = expand op environment varspecs) := by
  refine ⟨_, domain.grammatical.ofBody_bodyOf op, domain.expand_eq _, ?_⟩
  intro plainKeys
  rw [domain.expand_eq, expand]
  apply Row.expand_congr
  intro named v listed explode pairs bound pair member
  rw [(row_eq op).2.2] at named
  rw [encode_of_isNamed named, encodeLiteral_of_plain (plainKeys named v listed explode pairs bound
    pair member)]

theorem expand_conforms_query :
    ∃ e, Expression.ofBody "?a.b:3,l,m*" = .ok e ∧
      e.expand (fun name => if name = "a.b" then some (.scalar "é&=x")
        else if name = "l" then some (.list ["1", "/"]) else some (.map [("k", "")])) =
          "?a.b=%C3%A9%26%3D&l=1,%2F&k=" := by
  obtain ⟨e, read, _, conforms⟩ := expand_conforms .query
    [⟨"a.b", false, some 3⟩, ⟨"l", false, none⟩, ⟨"m", true, none⟩]
    (fun name => if name = "a.b" then some (.scalar "é&=x")
      else if name = "l" then some (.list ["1", "/"]) else some (.map [("k", "")]))
    { grammatical := ⟨by decide, by decide, by decide, by decide⟩
      scalars := by decide
      members := by decide
      lengths := List.forall_mem_cons.mpr
        ⟨fun _ _ found => ⟨"é&=x", (Option.some.inj found).symm⟩, by simp⟩
      contributes := Or.inr ⟨⟨"l", false, none⟩, by decide, "l=1,%2F", by decide, by decide⟩
      ordinary := fun _ _ _ _ _ _ =>
        ⟨fun allows => absurd allows (by decide), fun fragment => absurd fragment (by decide)⟩
      parameter := fun same => absurd same (by decide) }
  refine ⟨e, read, ?_⟩
  rw [conforms ?_]
  · decide
  · intro _ v listed explode pairs bound pair member
    have last : v = ⟨"m", true, none⟩ := by
      simp only [List.mem_cons, List.not_mem_nil, or_false] at listed
      rcases listed with rfl | rfl | same
      · exact absurd explode Bool.false_ne_true
      · exact absurd explode Bool.false_ne_true
      · exact same
    rw [last] at bound
    rw [← Binding.map.inj (Option.some.inj bound), List.mem_singleton] at member
    rw [member]
    exact plain_of_unreserved (by decide)

def colonKey : Environment := fun _ => some (.map [("a:b", "c")])

/-- The algorithm keeps the colon of the key, and expansion does not. -/
theorem not_conforms_colonKey :
    CommonDomain .query [⟨"m", true, none⟩] colonKey ∧
      ¬ ∃ e, Expression.ofBody (Expression.bodyOf .query [⟨"m", true, none⟩]) = .ok e ∧
        e.expand colonKey = expand .query colonKey [⟨"m", true, none⟩] := by
  have grammatical : Grammatical [⟨"m", true, none⟩] := ⟨by decide, by decide, by decide, by decide⟩
  constructor
  · exact
      { grammatical := grammatical
        scalars := by decide
        members := by decide
        lengths := by simp
        contributes := Or.inr ⟨⟨"m", true, none⟩, by decide, "a%3Ab=c", by decide, by decide⟩
        ordinary := fun _ _ _ _ _ _ =>
          ⟨fun allows => absurd allows (by decide), fun fragment => absurd fragment (by decide)⟩
        parameter := fun same => absurd same (by decide) }
  · rintro ⟨e, read, same⟩
    rw [grammatical.ofBody_bodyOf .query] at read
    rw [← Except.ok.inj read] at same
    exact absurd same (by decide)

end UriTemplate.Standard
