import UriTemplate.Interface
import UriTemplate.Proofs.Entries
import UriTemplate.Proofs.Pattern.Matching
import UriTemplate.Proofs.Template.Canonical
import UriTemplate.Proofs.Text.Joined
import UriTemplate.Proofs.Text.Unescaping

/-!
Readings: the ways in which a text can be put together from a template, with one string for each
occurrence of a variable. Extraction finds a reading whenever there is one, and of several the one
whose lengths come last in lexicographic order.
-/

namespace UriTemplate

/-- What can stand for a variable: something of the characters of an unmarked expansion where the
expression is unmarked, and anything without a line break where it is marked. -/
def Expression.Admits (e : Expression) (string : Text) : Prop :=
  if e.operator = .simple then string ≠ [] ∧ ∀ c ∈ string, Pattern.isPlain c = true
  else .ofChar '\n' ∉ string

/-- The strings, in order, put the text together: literal runs stand for themselves, and an
expression for the strings of its variables with the joiner between them. -/
inductive Reads : List (Segment Expression) → List Text → Text → Prop
  | nil : Reads [] [] []
  | literal {run segments strings t} : Reads segments strings t →
      Reads (.literal run :: segments) strings (run ++ t)
  | expression {e segments own strings t} : own.length = e.varspecs.length →
      (∀ string ∈ own, e.Admits string) → Reads segments strings t →
      Reads (.expression e :: segments) (own ++ strings)
        (Text.joined [e.operator.joiner] own ++ t)

/-- A reading none of whose rivals has greater lengths. -/
structure GreatestReading (segments : List (Segment Expression)) (strings : List Text) (t : Text) :
    Prop where
  reads : Reads segments strings t
  greatest : ∀ others, Reads segments others t →
    others.map List.length ≤ strings.map List.length

def lastString (names strings : List Text) (name : Text) : Option Text :=
  (names.zip strings).reverse.lookup name

/-- Each name once, where it occurs first, with what its last string is decoded to locally. -/
structure Decodes (names strings : List Text) (values : Extracted) : Prop where
  keys : values.map Prod.fst = names.eraseDups
  lookup : ∀ name value, values.lookup name = some value ↔
    ∃ string, lastString names strings name = some string ∧ Percent.DecodesLocally string value

namespace Pattern

theorem matches_literal_append_iff {run : Text} {p : Pattern} {groups : List Text} {t : Text} :
    Matches (run.map Token.char ++ p) groups t ↔ ∃ rest, t = run ++ rest ∧ Matches p groups rest := by
  induction run generalizing t with
  | nil => simp
  | cons c run ih =>
      constructor
      · intro matched
        cases matched with
        | char matched =>
            obtain ⟨rest, rfl, later⟩ := ih.mp matched
            exact ⟨rest, rfl, later⟩
      · rintro ⟨rest, rfl, later⟩
        exact Matches.char (ih.mpr ⟨rest, rfl, later⟩)

def groupOf (e : Expression) : Token := if e.operator = .simple then .plain else .free

theorem matches_groupOf_cons_iff {e : Expression} {p : Pattern} {groups : List Text} {t : Text} :
    Matches (groupOf e :: p) groups t ↔
      ∃ string others rest, groups = string :: others ∧ t = string ++ rest ∧ e.Admits string ∧
        Matches p others rest := by
  unfold groupOf Expression.Admits
  by_cases unmarked : e.operator = .simple
  · simp only [unmarked, if_true]
    constructor
    · intro matched
      cases matched with
      | plain nonempty all rest => exact ⟨_, _, _, rfl, rfl, ⟨nonempty, all⟩, rest⟩
    · rintro ⟨string, others, rest, rfl, rfl, ⟨nonempty, all⟩, later⟩
      exact Matches.plain nonempty all later
  · have noBreak (string : Text) : (∀ c ∈ string, isFree c = true) ↔ .ofChar '\n' ∉ string := by
      simp only [isFree, decide_eq_true_eq]
      exact ⟨fun all member => all _ member rfl, fun absent c member same => absent (same ▸ member)⟩
    simp only [unmarked, if_false]
    constructor
    · intro matched
      cases matched with
      | free all rest => exact ⟨_, _, _, rfl, rfl, (noBreak _).mp all, rest⟩
    · rintro ⟨string, others, rest, rfl, rfl, absent, later⟩
      exact Matches.free ((noBreak _).mpr absent) later

def groupsOf (e : Expression) (varspecs : List Varspec) : Pattern :=
  [Token.char e.operator.joiner].intercalate (varspecs.map fun _ => [groupOf e])

theorem ofExpression_eq (e : Expression) : ofExpression e = groupsOf e e.varspecs := rfl

@[simp] theorem groupsOf_nil (e : Expression) : groupsOf e [] = [] := rfl

@[simp] theorem groupsOf_singleton (e : Expression) (v : Varspec) : groupsOf e [v] = [groupOf e] :=
  List.intercalate_singleton

@[simp] theorem groupsOf_cons_cons (e : Expression) (v w : Varspec) (varspecs : List Varspec) :
    groupsOf e (v :: w :: varspecs) =
      groupOf e :: .char e.operator.joiner :: groupsOf e (w :: varspecs) := by
  simp [groupsOf]

theorem matches_groupsOf_append {e : Expression} {varspecs : List Varspec} {p : Pattern}
    {own others : List Text} {rest : Text} (size : own.length = varspecs.length)
    (admitted : ∀ string ∈ own, e.Admits string) (later : Matches p others rest) :
    Matches (groupsOf e varspecs ++ p) (own ++ others)
      (Text.joined [e.operator.joiner] own ++ rest) := by
  induction varspecs generalizing own with
  | nil =>
      rw [List.eq_nil_of_length_eq_zero size]
      exact later
  | cons v varspecs ih =>
      obtain ⟨string, own, rfl⟩ := List.exists_cons_of_length_eq_add_one size
      rw [List.forall_mem_cons] at admitted
      cases varspecs with
      | nil =>
          rw [List.eq_nil_of_length_eq_zero (Nat.succ.inj size), Text.joined_singleton,
            groupsOf_singleton]
          exact matches_groupOf_cons_iff.mpr ⟨string, others, rest, rfl, rfl, admitted.1, later⟩
      | cons w varspecs =>
          have rest := ih (Nat.succ.inj size) admitted.2
          have more := List.ne_nil_of_length_eq_add_one (Nat.succ.inj size)
          rw [groupsOf_cons_cons, Text.joined_cons more, List.append_assoc, List.append_assoc]
          exact matches_groupOf_cons_iff.mpr
            ⟨string, own ++ others, _, rfl, rfl, admitted.1, Matches.char rest⟩

theorem exists_of_matches_groupsOf_append {e : Expression} {varspecs : List Varspec} {p : Pattern}
    {groups : List Text} {t : Text} (matched : Matches (groupsOf e varspecs ++ p) groups t) :
    ∃ own others rest, groups = own ++ others ∧ t = Text.joined [e.operator.joiner] own ++ rest ∧
      own.length = varspecs.length ∧ (∀ string ∈ own, e.Admits string) ∧
      Matches p others rest := by
  induction varspecs generalizing groups t with
  | nil => exact ⟨[], groups, t, rfl, rfl, rfl, by simp, matched⟩
  | cons v varspecs ih =>
      cases varspecs with
      | nil =>
          rw [groupsOf_singleton] at matched
          obtain ⟨string, others, rest, rfl, rfl, admitted, later⟩ :=
            matches_groupOf_cons_iff.mp matched
          refine ⟨[string], others, rest, rfl, ?_, rfl, by simpa using admitted, later⟩
          rw [Text.joined_singleton]
      | cons w varspecs =>
          rw [groupsOf_cons_cons] at matched
          obtain ⟨string, others, rest, rfl, rfl, admitted, later⟩ :=
            matches_groupOf_cons_iff.mp matched
          cases later with
          | char later =>
              obtain ⟨own, others, rest, rfl, rfl, size, all, later⟩ := ih later
              have more := List.ne_nil_of_length_eq_add_one size
              refine ⟨string :: own, others, rest, rfl, ?_, congrArg (· + 1) size,
                List.forall_mem_cons.mpr ⟨admitted, all⟩, later⟩
              rw [Text.joined_cons more, List.append_assoc, List.append_assoc]
              rfl

theorem matches_ofSegments_iff {segments : List (Segment Expression)} {strings : List Text}
    {t : Text} : Matches (ofSegments segments) strings t ↔ Reads segments strings t := by
  induction segments generalizing strings t with
  | nil =>
      constructor
      · intro matched
        cases matched
        exact Reads.nil
      · intro reads
        cases reads
        exact Matches.nil
  | cons segment segments ih =>
      rw [ofSegments, List.flatMap_cons]
      cases segment with
      | literal run =>
          rw [ofSegment, matches_literal_append_iff]
          constructor
          · rintro ⟨rest, rfl, later⟩
            exact Reads.literal (ih.mp later)
          · intro reads
            cases reads with
            | literal reads => exact ⟨_, rfl, ih.mpr reads⟩
      | expression e =>
          rw [ofSegment, ofExpression_eq]
          constructor
          · intro matched
            obtain ⟨own, others, rest, rfl, rfl, size, admitted, later⟩ :=
              exists_of_matches_groupsOf_append matched
            exact Reads.expression size admitted (ih.mp later)
          · intro reads
            cases reads with
            | expression size admitted reads =>
                exact matches_groupsOf_append size admitted (ih.mpr reads)

end Pattern

theorem greatestReading_iff {segments : List (Segment Expression)} {strings : List Text} {t : Text} :
    GreatestReading segments strings t ↔
      (Pattern.ofSegments segments).captures? t = some strings := by
  rw [Pattern.captures?_eq_some_iff, Pattern.matches_ofSegments_iff]
  constructor
  · rintro ⟨reads, greatest⟩
    exact ⟨reads, fun others matched => greatest others (Pattern.matches_ofSegments_iff.mp matched)⟩
  · rintro ⟨reads, greatest⟩
    exact ⟨reads, fun others other => greatest others (Pattern.matches_ofSegments_iff.mpr other)⟩

theorem decodes_putAll {names strings : List Text} (size : strings.length = names.length) :
    Decodes names strings (Entries.putAll [] (names.zip (strings.map Percent.decode))) := by
  constructor
  · rw [Entries.map_fst_putAll, List.map_fst_zip (by simp [size])]
    simp
  · intro name value
    rw [Entries.lookup_putAll, List.zip_map_right, ← List.map_reverse, Entries.lookup_map, lastString,
      List.lookup_nil, Option.or_none, Option.map_eq_some_iff]
    simp only [Percent.decodesLocally_iff, eq_comm]

theorem Reads.length_eq {segments : List (Segment Expression)} {strings : List Text} {t : Text}
    (reads : Reads segments strings t) :
    strings.length = (Segment.names segments).length := by
  induction reads with
  | nil => rfl
  | literal _ ih => exact ih
  | @expression e segments own strings t size _ _ ih =>
      rw [Segment.names, Segment.expressions_expression_cons, List.flatMap_cons,
        List.length_append, List.length_append, ih, size, Expression.names, List.length_map]
      rfl

theorem Reads.mem_of_mem {segments : List (Segment Expression)} {strings : List Text} {t : Text}
    (reads : Reads segments strings t) {string : Text} (member : string ∈ strings) {c : CodePoint}
    (inside : c ∈ string) : c ∈ t := by
  induction reads with
  | nil => exact absurd member List.not_mem_nil
  | literal _ ih => exact List.mem_append_right _ (ih member)
  | expression _ _ _ ih =>
      rw [List.mem_append]
      rcases List.mem_append.mp member with own | later
      · exact Or.inl (Text.mem_joined_of_mem own inside)
      · exact Or.inr (ih later)

theorem Reads.exists_occurrence {segments : List (Segment Expression)} {strings : List Text} {t : Text}
    (reads : Reads segments strings t) {name string : Text}
    (paired : (name, string) ∈ (Segment.names segments).zip strings) :
    ∃ e ∈ Segment.expressions segments, name ∈ e.names ∧ e.Admits string := by
  induction reads with
  | nil => exact absurd paired List.not_mem_nil
  | literal _ ih => exact ih paired
  | @expression e segments own strings t size admitted _ ih =>
      have same : e.names.length = own.length := by rw [size, Expression.names, List.length_map]
      rw [Segment.names, Segment.expressions_expression_cons, List.flatMap_cons,
        List.zip_append same] at paired
      rcases List.mem_append.mp paired with here | later
      · have pair := List.of_mem_zip here
        exact ⟨e, List.mem_cons_self, pair.1, admitted string pair.2⟩
      · obtain ⟨other, listed, named, admits⟩ := ih later
        exact ⟨other, List.mem_cons_of_mem _ listed, named, admits⟩

theorem exists_lastString {names strings : List Text} (size : strings.length = names.length)
    {name : Text} (member : name ∈ names) :
    ∃ string, lastString names strings name = some string ∧ (name, string) ∈ names.zip strings := by
  have keys : (names.zip strings).map Prod.fst = names := List.map_fst_zip (by omega)
  cases found : lastString names strings name with
  | none =>
      rw [lastString, List.lookup_eq_none_iff] at found
      rw [← keys] at member
      obtain ⟨pair, listed, rfl⟩ := List.mem_map.mp member
      have different := found pair (List.mem_reverse.mpr listed)
      simp at different
  | some string =>
      obtain ⟨before, after, whole, _⟩ := List.lookup_eq_some_iff.mp found
      refine ⟨string, rfl, ?_⟩
      rw [← List.mem_reverse, whole]
      simp

theorem reads_literals_iff {segments : List (Segment Expression)}
    (literals : Segment.expressions segments = []) {strings : List Text} {t : Text} :
    Reads segments strings t ↔
      strings = [] ∧ t = (segments.map Segment.raw).flatMap Segment.written := by
  induction segments generalizing strings t with
  | nil =>
      constructor
      · intro reads
        cases reads
        exact ⟨rfl, rfl⟩
      · rintro ⟨rfl, rfl⟩
        exact Reads.nil
  | cons segment segments ih =>
      cases segment with
      | expression e => simp at literals
      | literal run =>
          constructor
          · intro reads
            cases reads with
            | literal reads =>
                obtain ⟨rfl, rfl⟩ := (ih literals).mp reads
                exact ⟨rfl, rfl⟩
          · rintro ⟨rfl, rfl⟩
            exact Reads.literal ((ih literals).mpr ⟨rfl, rfl⟩)

namespace Template

variable {t : Template} {segments : List (Segment Expression)}

theorem patternSource_eq (parsed : t.segments = .ok segments) :
    t.patternSource = .ok (Pattern.ofSegments segments).source := by
  rw [patternSource, parsed]
  rfl

theorem make_patternSource (parsed : t.segments = .ok segments) :
    Compiled.make patternSource t =
      .ok ⟨(Pattern.ofSegments segments).source, Pattern.ofSegments segments⟩ := by
  simp only [Compiled.make, patternSource, parsed, Except.map, bind, Except.bind,
    Pattern.read_source]
  rfl

theorem patternSource_of_refused {fault : Fault} (failed : t.segments = .error fault) :
    t.patternSource = .error fault := by
  rw [patternSource, failed]
  rfl

theorem make_of_refused {fault : Fault} (failed : t.segments = .error fault) :
    Compiled.make patternSource t = .error fault := by
  rw [Compiled.make, patternSource_of_refused failed]
  rfl

theorem extract_eq (parsed : t.segments = .ok segments) (candidate : Text) :
    t.extract candidate = .ok (((Pattern.ofSegments segments).captures? candidate).map fun captures =>
      Entries.putAll [] ((Segment.names segments).zip (captures.map Percent.decode))) := by
  unfold extract
  rw [make_patternSource parsed]
  simp only [extractBy]
  cases (Pattern.ofSegments segments).captures? candidate with
  | none => rfl
  | some captures =>
      simp only [values, variables_eq parsed, Except.map, Option.map_some]

theorem extract_eq_none_iff (parsed : t.segments = .ok segments) {candidate : Text} :
    t.extract candidate = .ok none ↔ ∀ strings, ¬ Reads segments strings candidate := by
  rw [extract_eq parsed, Except.ok.injEq, Option.map_eq_none_iff, Pattern.captures?_eq_none_iff]
  simp only [Pattern.matches_ofSegments_iff]

theorem extract_of_greatestReading (parsed : t.segments = .ok segments) {candidate : Text}
    {strings : List Text} (greatest : GreatestReading segments strings candidate) :
    ∃ values, Decodes (Segment.names segments) strings values ∧
      t.extract candidate = .ok (some values) := by
  refine ⟨_, decodes_putAll greatest.reads.length_eq, ?_⟩
  rw [extract_eq parsed, greatestReading_iff.mp greatest]
  rfl

theorem exists_greatestReading {candidate : Text} {strings : List Text}
    (reads : Reads segments strings candidate) :
    ∃ strings, GreatestReading segments strings candidate := by
  obtain ⟨best, found, _⟩ := Pattern.exists_captures? (Pattern.matches_ofSegments_iff.mpr reads)
  exact ⟨best, greatestReading_iff.mpr found⟩

theorem extract_of_bodies_eq_nil (parsed : t.segments = .ok segments) (none : t.bodies = [])
    (candidate : Text) :
    t.extract candidate = .ok (if candidate = t.text then some [] else Option.none) := by
  rw [bodies_eq parsed, List.map_eq_nil_iff] at none
  have whole : (segments.map Segment.raw).flatMap Segment.written = t.text := by
    rw [← (segments_eq_ok_iff.mp parsed).1, Segment.flatMap_written_bodies]
  have only {strings : List Text} :
      Reads segments strings candidate ↔ strings = [] ∧ candidate = t.text := by
    rw [reads_literals_iff none, whole]
  split
  · rename_i same
    have greatest : GreatestReading segments [] candidate := by
      refine ⟨only.mpr ⟨rfl, same⟩, ?_⟩
      intro others reads
      rw [(only.mp reads).1]
    rw [extract_eq parsed, greatestReading_iff.mp greatest, Segment.names, none]
    rfl
  · rename_i different
    exact (extract_eq_none_iff parsed).mpr fun strings reads => different (only.mp reads).2

end Template

theorem extractText_text (t candidate : Text) :
    extractText (.text t) (.text candidate) = Template.extract ⟨t⟩ candidate :=
  Template.extractFrom_text ⟨t⟩ candidate

/-- Extraction gives nothing when there is no reading, and otherwise the decoded strings of the
greatest one, of which there is one whenever there is a reading. -/
theorem extractText_greatestReading (t : Template) (segments : List (Segment Expression))
    (parsed : t.segments = .ok segments) :
    ∃ names, t.variables = .ok names ∧ ∀ candidate : Text,
      (extractText (.text t.text) (.text candidate) = .ok none ↔
        ∀ strings, ¬ Reads segments strings candidate) ∧
      ((∃ strings, Reads segments strings candidate) →
        ∃ strings, GreatestReading segments strings candidate) ∧
      (∀ strings, GreatestReading segments strings candidate →
        ∃ values, Decodes names strings values ∧
          extractText (.text t.text) (.text candidate) = .ok (some values)) ∧
      (t.bodies = [] → extractText (.text t.text) (.text candidate) =
        .ok (if candidate = t.text then some [] else none)) := by
  refine ⟨_, Template.variables_eq parsed, ?_⟩
  intro candidate
  rw [extractText_text]
  refine ⟨Template.extract_eq_none_iff parsed, ?_, ?_, ?_⟩
  · rintro ⟨strings, reads⟩
    exact Template.exists_greatestReading reads
  · intro strings greatest
    exact Template.extract_of_greatestReading parsed greatest
  · intro none
    exact Template.extract_of_bodies_eq_nil parsed none candidate

theorem extractText_greatestReading_repeated :
    (∃ values : Extracted, values.map Prod.fst = [("a" : Text), ("b" : Text)] ∧
      values.lookup ("a" : Text) = some ("/ " : Text) ∧
      values.lookup ("b" : Text) = some ("z" : Text) ∧
      extractText (.text "\x7ba,b\x7d\x7b+a\x7d") (.text "xy,z/%20") = .ok (some values)) ∧
    extractText (.text "\x7ba,b\x7d\x7b+a\x7d") (.text "xyz/%20") = .ok none := by
  have parsed : Template.segments ⟨"\x7ba,b\x7d\x7b+a\x7d"⟩ =
      .ok [.expression ⟨"a,b", .simple, [⟨"a", false, none⟩, ⟨"b", false, none⟩]⟩,
        .expression ⟨"+a", .reserved, [⟨"a", false, none⟩]⟩] := by cbv
  obtain ⟨names, listed, extracts⟩ := extractText_greatestReading _ _ parsed
  rw [Template.variables_eq parsed, Except.ok.injEq] at listed
  subst listed
  constructor
  · obtain ⟨values, decodes, extracted⟩ :=
      (extracts "xy,z/%20").2.2.1 ["xy", "z", "/%20"] (greatestReading_iff.mpr (by decide))
    have space : Percent.decode "/%20" = "/ " := by
      rw [Percent.decode_of_ascii (by decide)]
      decide
    have letter : Percent.decode "z" = "z" := by
      rw [Percent.decode_of_ascii (by decide)]
      decide
    refine ⟨values, decodes.keys.trans (by decide), ?_, ?_, extracted⟩
    · exact (decodes.lookup _ _).mpr ⟨"/%20", by decide, Percent.decodesLocally_iff.mpr space.symm⟩
    · exact (decodes.lookup _ _).mpr ⟨"z", by decide, Percent.decodesLocally_iff.mpr letter.symm⟩
  · apply (extracts "xyz/%20").1.mpr
    intro strings reads
    exact Pattern.captures?_eq_none_iff.mp (by decide) strings
      (Pattern.matches_ofSegments_iff.mpr reads)

end UriTemplate
