import UriTemplate.Proofs.Datum.Environment
import UriTemplate.Proofs.Expansion.Basic
import UriTemplate.Proofs.Extraction.Reading

/-!
Templates side by side. When every opening brace of the first has a closing one behind it, the
division of the whole is that of the first followed by that of the second, a run at the end of the
first and one at the beginning of the second being one. Names, expansions and pattern sources are
made character by character of a run, so they are those of the first followed by those of the
second.
-/

namespace UriTemplate

namespace Segment

variable {ε β : Type}

/-- Every opening brace is followed by a closing one, at once or later. -/
def ClosedBraces (run : Text) : Prop := AfterBraces (.ofChar '}' ∈ ·) run

instance : (run : Text) → Decidable (ClosedBraces run)
  | [] => .isTrue (afterBraces_nil _)
  | c :: run =>
    have : Decidable (ClosedBraces run) := instDecidableClosedBraces run
    decidable_of_iff ((c = .ofChar '{' → .ofChar '}' ∈ run) ∧ ClosedBraces run)
      afterBraces_cons.symm

/-- Puts a segment in front, a literal run into the run that begins there if one does. -/
def attach : Segment ε → List (Segment ε) → List (Segment ε)
  | .literal run, segments => run.foldr prepend segments
  | .expression content, segments => .expression content :: segments

theorem foldr_attach_prepend (c : CodePoint) (segments others : List (Segment ε)) :
    (prepend c segments).foldr attach others = prepend c (segments.foldr attach others) := by
  cases segments with
  | nil => rfl
  | cons segment segments => cases segment <;> rfl

theorem enclosed?_append_right {rest body after : Text}
    (found : enclosed? rest = some (body, after)) (t : Text) :
    enclosed? (rest ++ t) = some (body, after ++ t) := by
  obtain ⟨nonempty, unclosed⟩ := body_of_enclosed? found
  rw [eq_append_of_enclosed? found, List.append_assoc, List.cons_append]
  exact enclosed?_append nonempty unclosed (after ++ t)

theorem enclosed?_append_eq_none {rest : Text} (closed : .ofChar '}' ∈ rest)
    (refused : enclosed? rest = none) (t : Text) : enclosed? (rest ++ t) = none := by
  have head : rest.head? = some (.ofChar '}') := by
    rcases enclosed?_eq_none_iff.mp refused with closing | absent
    · exact closing
    · exact absurd closed absent
  apply enclosed?_eq_none_iff.mpr
  rw [List.head?_append, head]
  exact Or.inl rfl

/-- No expression reaches across the seam. -/
theorem bodies_append_of_closed {s : Text} (closed : ClosedBraces s) (t : Text) :
    bodies (s ++ t) = (bodies s).foldr attach (bodies t) := by
  fun_induction bodies s with
  | case1 => rfl
  | case2 rest body after found ih =>
      -- The expression is found again in the longer text, and what is behind it stays closed.
      have later : ClosedBraces after := by
        have behind := (afterBraces_cons.mp closed).2
        rw [eq_append_of_enclosed? found] at behind
        exact (afterBraces_cons.mp (afterBraces_append.mp behind).2).2
      rw [List.cons_append, bodies_expression (enclosed?_append_right found t), ih later]
      rfl
  | case3 rest refused ih =>
      obtain ⟨first, later⟩ := afterBraces_cons.mp closed
      -- No closing brace of the second text can matter to this one, which has its own.
      have inert := enclosed?_append_eq_none (first rfl) refused t
      rw [List.cons_append, bodies_literal fun _ => inert, ih later, foldr_attach_prepend]
  | case4 c rest other ih =>
      have later := (afterBraces_cons.mp closed).2
      rw [List.cons_append, bodies_literal fun opening => absurd opening other, ih later,
        foldr_attach_prepend]

theorem map_raw_prepend (c : CodePoint) (segments : List (Segment Expression)) :
    (prepend c segments).map raw = prepend c (segments.map raw) := by
  cases segments with
  | nil => rfl
  | cons segment segments => cases segment <;> rfl

theorem map_raw_attach (segment : Segment Expression) (segments : List (Segment Expression)) :
    (attach segment segments).map raw = attach segment.raw (segments.map raw) := by
  cases segment with
  | literal run =>
      exact (List.foldr_hom (List.map raw) fun c rest => (map_raw_prepend c rest).symm).symm
  | expression e => rfl

theorem map_raw_foldr_attach (segments others : List (Segment Expression)) :
    (segments.foldr attach others).map raw = (segments.map raw).foldr attach (others.map raw) := by
  rw [List.foldr_map]
  exact (List.foldr_hom (List.map raw) fun segment rest => (map_raw_attach segment rest).symm).symm

section Consumers

variable {f : CodePoint → List β} {g : Segment ε → List β}
  (characters : ∀ run, g (.literal run) = run.flatMap f)

include characters

theorem flatMap_prepend (c : CodePoint) (segments : List (Segment ε)) :
    (prepend c segments).flatMap g = f c ++ segments.flatMap g := by
  have alone : g (.literal [c]) = f c := by rw [characters, List.flatMap_singleton]
  cases segments with
  | nil =>
      change [literal [c]].flatMap g = _
      rw [List.flatMap_singleton, alone, List.flatMap_nil, List.append_nil]
  | cons segment segments =>
      cases segment with
      | literal run =>
          rw [prepend, List.flatMap_cons, List.flatMap_cons, characters, characters,
            List.flatMap_cons, List.append_assoc]
      | expression content =>
          change (literal [c] :: expression content :: segments).flatMap g = _
          rw [List.flatMap_cons, alone]

theorem flatMap_attach (segment : Segment ε) (segments : List (Segment ε)) :
    (attach segment segments).flatMap g = g segment ++ segments.flatMap g := by
  cases segment with
  | expression content => rfl
  | literal run =>
      rw [characters, attach]
      induction run with
      | nil => rfl
      | cons c run ih =>
          rw [List.foldr_cons, flatMap_prepend characters, ih, List.flatMap_cons, List.append_assoc]

theorem flatMap_foldr_attach (segments others : List (Segment ε)) :
    (segments.foldr attach others).flatMap g = segments.flatMap g ++ others.flatMap g := by
  induction segments with
  | nil => rfl
  | cons segment segments ih =>
      rw [List.foldr_cons, flatMap_attach characters, ih, List.flatMap_cons, List.append_assoc]

end Consumers

variable {segments others : List (Segment Expression)}

theorem expressions_foldr_attach :
    expressions (segments.foldr attach others) = expressions segments ++ expressions others := by
  have none (run : Text) : (Segment.literal run).expression?.toList =
      run.flatMap fun _ => ([] : List Expression) :=
    (List.flatMap_eq_nil_iff.mpr fun _ _ => rfl).symm
  simp only [expressions, List.filterMap_eq_flatMap_toList]
  exact flatMap_foldr_attach none segments others

theorem names_foldr_attach :
    names (segments.foldr attach others) = names segments ++ names others := by
  rw [names, expressions_foldr_attach, List.flatMap_append]
  rfl

theorem flatMap_expand_foldr_attach (environment : Environment) :
    (segments.foldr attach others).flatMap (expand environment) =
      segments.flatMap (expand environment) ++ others.flatMap (expand environment) :=
  flatMap_foldr_attach (fun run => (List.flatMap_singleton' run).symm) segments others

theorem ofSegments_foldr_attach :
    Pattern.ofSegments (segments.foldr attach others) =
      Pattern.ofSegments segments ++ Pattern.ofSegments others :=
  flatMap_foldr_attach (fun _ => List.map_eq_flatMap) segments others

end Segment

namespace Template

variable {s t : Template}

theorem segments_append {segments others : List (Segment Expression)}
    (closed : Segment.ClosedBraces s.text) (first : s.segments = .ok segments)
    (second : t.segments = .ok others) :
    Template.segments ⟨s.text ++ t.text⟩ = .ok (segments.foldr Segment.attach others) := by
  rw [segments_eq_ok_iff] at first second
  apply segments_eq_ok_iff.mpr
  constructor
  · rw [Segment.bodies_append_of_closed closed, first.1, second.1, Segment.map_raw_foldr_attach]
  · rw [Segment.forall_parsed_iff] at first second ⊢
    rw [Segment.expressions_foldr_attach]
    exact List.forall_mem_append.mpr ⟨first.2, second.2⟩

/-- Of two templates side by side, the first without an opening brace that stays open, the names,
every expansion and the pattern source are those of the first followed by those of the second. -/
theorem concatenation_composes (s t : Template) (closed : Segment.ClosedBraces s.text)
    (segments others : List (Segment Expression)) (first : s.segments = .ok segments)
    (second : t.segments = .ok others) :
    (∃ names moreNames, s.variables = .ok names ∧ t.variables = .ok moreNames ∧
      Template.variables ⟨s.text ++ t.text⟩ = .ok (names ++ moreNames)) ∧
    (∀ (bindings : Datum) (bound : List (Datum × Binding)),
      bindings.coerceBindings = .ok bound → ∃ expanded moreExpanded,
        expandText (.text s.text) bindings = .ok expanded ∧
        expandText (.text t.text) bindings = .ok moreExpanded ∧
        expandText (.text (s.text ++ t.text)) bindings = .ok (expanded ++ moreExpanded)) ∧
    ∃ source moreSource, s.patternSource = .ok source ∧ t.patternSource = .ok moreSource ∧
      patternSource ⟨s.text ++ t.text⟩ = .ok (source ++ moreSource) := by
  have whole := segments_append closed first second
  refine ⟨?_, ?_, ?_⟩
  · refine ⟨_, _, variables_eq first, variables_eq second, ?_⟩
    rw [variables_eq whole, Segment.names_foldr_attach]
  · intro bindings bound coerced
    rw [expandText_text coerced, expandText_text coerced, expandText_text coerced]
    refine ⟨_, _, expand_eq first, expand_eq second, ?_⟩
    rw [expand_eq whole, Segment.flatMap_expand_foldr_attach]
  · refine ⟨_, _, patternSource_eq first, patternSource_eq second, ?_⟩
    rw [patternSource_eq whole, Segment.ofSegments_foldr_attach, Pattern.source,
      List.flatMap_append]
    rfl

theorem concatenation_composes_braces :
    Segment.ClosedBraces "\x7b\x7d\x7ba\x7d\x7b\x7d" ∧
      Template.variables ⟨"\x7b\x7d\x7ba\x7d\x7b\x7d" ++ "x\x7d\x7b+b\x7d\x7b"⟩ =
        .ok ["a", "b"] ∧
      expandText (.text ("\x7b\x7d\x7ba\x7d\x7b\x7d" ++ "x\x7d\x7b+b\x7d\x7b"))
          (.mapping .plain [(.text "a", .text "\x7b"), (.text "b", .text "/")]) =
        .ok "\x7b\x7d%7B\x7b\x7dx\x7d/\x7b" ∧
      patternSource ⟨"\x7b\x7d\x7ba\x7d\x7b\x7d" ++ "x\x7d\x7b+b\x7d\x7b"⟩ =
        .ok "\\\x7b\\\x7d([A-Za-z0-9%_.~\\-]+)\\\x7b\\\x7dx\\\x7d(.*)\\\x7b" := by
  have closed : Segment.ClosedBraces "\x7b\x7d\x7ba\x7d\x7b\x7d" := by decide
  have first : Template.segments ⟨"\x7b\x7d\x7ba\x7d\x7b\x7d"⟩ =
      .ok [.literal "\x7b\x7d", .expression ⟨"a", .simple, [⟨"a", false, none⟩]⟩,
        .literal "\x7b\x7d"] := by cbv
  have second : Template.segments ⟨"x\x7d\x7b+b\x7d\x7b"⟩ =
      .ok [.literal "x\x7d", .expression ⟨"+b", .reserved, [⟨"b", false, none⟩]⟩,
        .literal "\x7b"] := by cbv
  have coerced : Datum.coerceBindings (.mapping .plain [(.text "a", .text "\x7b"),
      (.text "b", .text "/")]) = .ok [(.text "a", .scalar "\x7b"), (.text "b", .scalar "/")] := rfl
  have environment : Datum.environmentOf [(.text "a", .scalar "\x7b"), (.text "b", .scalar "/")] =
      fun name : Text => if name = "a" then some (.scalar "\x7b")
        else if name = "b" then some (.scalar "/") else none := by
    funext name
    simp only [Datum.environmentOf_cons]
    rfl
  obtain ⟨⟨_, _, listed, moreListed, allListed⟩, expansions, _, _, written, moreWritten,
    allWritten⟩ := concatenation_composes ⟨"\x7b\x7d\x7ba\x7d\x7b\x7d"⟩ ⟨"x\x7d\x7b+b\x7d\x7b"⟩
      closed _ _ first second
  obtain ⟨_, _, expands, moreExpands, allExpands⟩ := expansions _ _ coerced
  obtain rfl := Except.ok.inj ((variables_eq first).symm.trans listed)
  obtain rfl := Except.ok.inj ((variables_eq second).symm.trans moreListed)
  obtain rfl := Except.ok.inj ((patternSource_eq first).symm.trans written)
  obtain rfl := Except.ok.inj ((patternSource_eq second).symm.trans moreWritten)
  rw [expandText_text coerced, expand_eq first] at expands
  rw [expandText_text coerced, expand_eq second] at moreExpands
  obtain rfl := Except.ok.inj expands
  obtain rfl := Except.ok.inj moreExpands
  refine ⟨closed, allListed.trans (by decide), allExpands.trans ?_, allWritten.trans (by decide)⟩
  rw [environment]
  decide

end Template

end UriTemplate
