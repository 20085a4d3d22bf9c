import UriTemplate.Proofs.Extraction.Reading

/-!
The source of a pattern says what the template says. Read from left to right, with a backslash
making a literal of whatever follows it, the source consists of the characters of the literal runs,
of the joiners, and of one group for each variable, each at the place it has in the template.
-/

namespace UriTemplate

inductive Lexeme
  | escaped (c : CodePoint)
  | bare (c : CodePoint)
  | free
  | plain
deriving DecidableEq

namespace Lexeme

def spelling : Lexeme → Text
  | escaped c => ['\\', c]
  | bare c => [c]
  | free => Token.freeSource
  | plain => Token.plainSource

def token : Lexeme → Token
  | escaped c => .char c
  | bare c => .char c
  | free => .free
  | plain => .plain

def first? (c : CodePoint) (rest : Text) : Option (Lexeme × Text) :=
  if c = '\\' then
    match rest with
    | [] => none
    | d :: after => some (.escaped d, after)
  else match Text.after? Token.freeSource (c :: rest), Text.after? Token.plainSource (c :: rest) with
    | some after, _ => some (.free, after)
    | none, some after => some (.plain, after)
    | none, none => some (.bare c, rest)

theorem spelling_append_of_first? {c : CodePoint} {rest after : Text} {lexeme : Lexeme}
    (found : first? c rest = some (lexeme, after)) : c :: rest = lexeme.spelling ++ after := by
  unfold first? at found
  split at found
  · rename_i backslash
    split at found
    · simp at found
    · simp only [Option.some.injEq, Prod.mk.injEq] at found
      rw [← found.1, ← found.2, backslash]
      rfl
  · split at found
    · rename_i group
      simp only [Option.some.injEq, Prod.mk.injEq] at found
      rw [← found.1, ← found.2]
      exact Text.eq_append_of_after? group
    · rename_i group
      simp only [Option.some.injEq, Prod.mk.injEq] at found
      rw [← found.1, ← found.2]
      exact Text.eq_append_of_after? group
    · simp only [Option.some.injEq, Prod.mk.injEq] at found
      rw [← found.1, ← found.2]
      rfl

theorem length_spelling_pos (lexeme : Lexeme) : 0 < lexeme.spelling.length := by
  cases lexeme with
  | escaped c => exact Nat.succ_pos 1
  | bare c => exact Nat.succ_pos 0
  | free => decide
  | plain => decide

def ofSource? (source : Text) : Option (List Lexeme) :=
  match source with
  | [] => some []
  | c :: rest =>
    match _found : first? c rest with
    | none => none
    | some (lexeme, after) => (ofSource? after).map (lexeme :: ·)
termination_by source.length
decreasing_by
  have size := congrArg List.length (spelling_append_of_first? _found)
  have positive := lexeme.length_spelling_pos
  rw [List.length_append] at size
  omega

def Standing : Lexeme → Prop
  | bare c => c ≠ .ofChar '\\' ∧ c ≠ .ofChar '('
  | _ => True

theorem after?_of_head_ne {head rest : Text} {h c : CodePoint} (different : h ≠ c) :
    Text.after? (h :: head) (c :: rest) = none := by
  rw [Text.after?, if_neg different]

theorem first?_spelling {lexeme : Lexeme} (standing : lexeme.Standing) (rest : Text) :
    ∃ c tail, lexeme.spelling ++ rest = c :: tail ∧ first? c tail = some (lexeme, rest) := by
  cases lexeme with
  | escaped c => exact ⟨'\\', c :: rest, rfl, by simp [first?]⟩
  | bare c =>
      have noFree : Text.after? Token.freeSource (c :: rest) = none :=
        after?_of_head_ne (Ne.symm standing.2)
      have noPlain : Text.after? Token.plainSource (c :: rest) = none :=
        after?_of_head_ne (Ne.symm standing.2)
      refine ⟨c, rest, rfl, ?_⟩
      unfold first?
      rw [if_neg standing.1, noFree, noPlain]
  | free =>
      have found := Text.after?_append Token.freeSource rest
      refine ⟨'(', Token.freeSource.tail ++ rest, rfl, ?_⟩
      change Text.after? Token.freeSource (.ofChar '(' :: (Token.freeSource.tail ++ rest)) = _ at found
      unfold first?
      rw [if_neg (by decide), found]
  | plain =>
      have found := Text.after?_append Token.plainSource rest
      have noFree : Text.after? Token.freeSource (Token.plainSource ++ rest) = none := rfl
      refine ⟨'(', Token.plainSource.tail ++ rest, rfl, ?_⟩
      change Text.after? _ (.ofChar '(' :: (Token.plainSource.tail ++ rest)) = _ at found noFree
      unfold first?
      rw [if_neg (by decide), found, noFree]

theorem ofSource?_flatMap_spelling {lexemes : List Lexeme}
    (standing : ∀ lexeme ∈ lexemes, lexeme.Standing) :
    ofSource? (lexemes.flatMap spelling) = some lexemes := by
  induction lexemes with
  | nil => simp [ofSource?]
  | cons lexeme lexemes ih =>
      rw [List.forall_mem_cons] at standing
      obtain ⟨c, tail, shape, found⟩ := first?_spelling standing.1 (lexemes.flatMap spelling)
      rw [List.flatMap_cons, shape, ofSource?]
      split
      · rename_i refused
        rw [found] at refused
        simp at refused
      · rename_i other after same
        rw [found, Option.some.injEq, Prod.mk.injEq] at same
        rw [← same.1, ← same.2, ih standing.2]
        rfl

def ofToken : Token → Lexeme
  | .char c => if c ∈ Token.special then escaped c else bare c
  | .free => free
  | .plain => plain

theorem spelling_ofToken (token : Token) : (ofToken token).spelling = token.source := by
  cases token with
  | char c =>
      rw [ofToken, Token.source]
      split <;> rfl
  | free => rfl
  | plain => rfl

theorem token_ofToken (token : Token) : (ofToken token).token = token := by
  cases token with
  | char c =>
      rw [ofToken]
      split <;> rfl
  | free => rfl
  | plain => rfl

theorem not_special_of_ofToken {token : Token} {c : CodePoint} (bare : ofToken token = bare c) :
    c ∉ Token.special := by
  cases token with
  | char d =>
      rw [ofToken] at bare
      split at bare
      · simp at bare
      · rename_i ordinary
        rwa [← Lexeme.bare.inj bare]
  | free => simp [ofToken] at bare
  | plain => simp [ofToken] at bare

theorem standing_ofToken (token : Token) : (ofToken token).Standing := by
  cases shape : ofToken token with
  | bare c =>
      have ordinary := not_special_of_ofToken shape
      constructor
      · rintro rfl
        exact ordinary (by decide)
      · rintro rfl
        exact ordinary (by decide)
  | escaped c => trivial
  | free => trivial
  | plain => trivial

theorem ofSource?_source (p : Pattern) : ofSource? p.source = some (p.map ofToken) := by
  have written : p.source = (p.map ofToken).flatMap spelling := by
    rw [List.flatMap_map, Pattern.source]
    exact List.flatMap_congr fun token _ => (spelling_ofToken token).symm
  rw [written]
  exact ofSource?_flatMap_spelling (List.forall_mem_map.mpr fun token _ => standing_ofToken token)

/-- A reader of patterns accepts the lexeme: no operator is left bare, and no backslash stands before
a letter or a digit, where it would not make a literal. -/
def Regular : Lexeme → Prop
  | escaped c => c.isLetter = false ∧ c.isDigit = false
  | bare c => c ∉ Token.metacharacters
  | _ => True

section

variable {lexeme : Lexeme} {token : Token} {rest after : Text} {defect : Defect}

theorem ok_iff_of_regular (regular : lexeme.Regular) :
    (.ok (lexeme.token, rest) : Except Defect (Token × Text)) = .ok (token, after) ↔
      ∃ other, some (lexeme, rest) = some (other, after) ∧ other.Regular ∧ token = other.token := by
  constructor
  · intro same
    obtain ⟨rfl, rfl⟩ := Prod.mk.inj (Except.ok.inj same)
    exact ⟨lexeme, rfl, regular, rfl⟩
  · rintro ⟨_, same, _, rfl⟩
    obtain ⟨rfl, rfl⟩ := Prod.mk.inj (Option.some.inj same)
    rfl

theorem error_iff_of_irregular (irregular : ¬ lexeme.Regular) :
    (.error defect : Except Defect (Token × Text)) = .ok (token, after) ↔
      ∃ other, some (lexeme, rest) = some (other, after) ∧ other.Regular ∧ token = other.token := by
  refine iff_of_false (by simp) ?_
  rintro ⟨_, same, regular, _⟩
  rw [← (Prod.mk.inj (Option.some.inj same)).1] at regular
  exact irregular regular

theorem first_eq_ok_iff {position : Nat} {c : CodePoint} :
    Pattern.first position c rest = .ok (token, after) ↔
      ∃ lexeme, first? c rest = some (lexeme, after) ∧ lexeme.Regular ∧ token = lexeme.token := by
  unfold Pattern.first first?
  split
  · cases rest with
    | nil => simp
    | cons d rest =>
        have literal : ¬(d.isLetter || d.isDigit) = true ↔ (escaped d).Regular := by simp [Regular]
        dsimp only
        by_cases regular : (escaped d).Regular
        · rw [if_neg (literal.mpr regular)]
          exact ok_iff_of_regular regular
        · rw [if_pos (not_not.mp (literal.not.mpr regular))]
          exact error_iff_of_irregular regular
  · by_cases opening : c = .ofChar '('
    · subst opening
      have irregular : ¬(bare (.ofChar '(')).Regular := fun regular => regular (by decide)
      rw [if_pos rfl]
      cases Text.after? Token.freeSource (.ofChar '(' :: rest) with
      | some others => exact ok_iff_of_regular (show Regular free from trivial)
      | none =>
          cases Text.after? Token.plainSource (.ofChar '(' :: rest) with
          | some others => exact ok_iff_of_regular (show Regular plain from trivial)
          | none => exact error_iff_of_irregular irregular
    · have noFree : Text.after? Token.freeSource (c :: rest) = none :=
        after?_of_head_ne (Ne.symm opening)
      have noPlain : Text.after? Token.plainSource (c :: rest) = none :=
        after?_of_head_ne (Ne.symm opening)
      rw [if_neg opening, noFree, noPlain]
      by_cases regular : (bare c).Regular
      · rw [if_neg regular]
        exact ok_iff_of_regular regular
      · rw [if_pos (not_not.mp regular)]
        exact error_iff_of_irregular regular

end

theorem read_cons_eq_ok_iff {position : Nat} {c : CodePoint} {rest : Text} {p : Pattern} :
    Pattern.read position (c :: rest) = .ok p ↔
      ∃ token after later, Pattern.first position c rest = .ok (token, after) ∧
        Pattern.read (position + (rest.length + 1 - after.length)) after = .ok later ∧
        p = token :: later := by
  rw [Pattern.read]
  split
  · rename_i refused
    rw [refused]
    simp
  · rename_i token after found
    simp only [found, Except.ok.injEq, Prod.mk.injEq, and_assoc, exists_and_left,
      exists_eq_left']
    cases Pattern.read (position + (rest.length + 1 - after.length)) after with
    | ok later => simp [Except.map, eq_comm]
    | error defect => simp [Except.map]

/-- A source is a pattern exactly when its lexemes are regular, and then it is theirs. -/
theorem read_eq_ok_iff {position : Nat} {source : Text} {p : Pattern} :
    Pattern.read position source = .ok p ↔
      ∃ lexemes, ofSource? source = some lexemes ∧ (∀ lexeme ∈ lexemes, lexeme.Regular) ∧
        p = lexemes.map token := by
  fun_induction ofSource? source generalizing position p with
  | case1 =>
      rw [Pattern.read]
      simp [eq_comm]
  | case2 c rest refused =>
      rw [read_cons_eq_ok_iff]
      refine iff_of_false ?_ (by simp)
      rintro ⟨token, after, later, first, _⟩
      obtain ⟨lexeme, found, _⟩ := first_eq_ok_iff.mp first
      rw [refused] at found
      simp at found
  | case3 c rest lexeme after found ih =>
      rw [read_cons_eq_ok_iff]
      constructor
      · rintro ⟨token, others, later, first, read, rfl⟩
        obtain ⟨other, same, regular, rfl⟩ := first_eq_ok_iff.mp first
        rw [found, Option.some.injEq, Prod.mk.injEq] at same
        obtain ⟨rfl, rfl⟩ := same
        obtain ⟨lexemes, whole, regulars, rfl⟩ := ih.mp read
        refine ⟨lexeme :: lexemes, ?_, List.forall_mem_cons.mpr ⟨regular, regulars⟩, rfl⟩
        rw [whole]
        rfl
      · rintro ⟨all, whole, regulars, rfl⟩
        obtain ⟨lexemes, later, rfl⟩ := Option.map_eq_some_iff.mp whole
        rw [List.forall_mem_cons] at regulars
        exact ⟨_, after, _, first_eq_ok_iff.mpr ⟨lexeme, found, regulars.1, rfl⟩,
          ih.mpr ⟨lexemes, later, regulars.2, rfl⟩, rfl⟩

end Lexeme

inductive Place
  | char (c : CodePoint)
  | occurrence (e : Expression) (v : Varspec)

namespace Place

def ofVarspecs (e : Expression) (varspecs : List Varspec) : List Place :=
  [char e.operator.joiner].intercalate (varspecs.map fun v => [occurrence e v])

def ofSegment : Segment Expression → List Place
  | .literal run => run.map char
  | .expression e => ofVarspecs e e.varspecs

def ofSegments (segments : List (Segment Expression)) : List Place := segments.flatMap ofSegment

def token : Place → Token
  | char c => .char c
  | occurrence e _ => if e.operator.marker? = none then .plain else .free

def occurrence? : Place → Option (Expression × Varspec)
  | char _ => none
  | occurrence e v => some (e, v)

end Place

def Segment.occurrences (segments : List (Segment Expression)) : List (Expression × Varspec) :=
  (expressions segments).flatMap fun e => e.varspecs.map fun v => (e, v)

theorem Segment.names_eq_map_occurrences (segments : List (Segment Expression)) :
    names segments = (occurrences segments).map fun occurrence => occurrence.2.name := by
  rw [occurrences, List.map_flatMap, names]
  apply List.flatMap_congr
  intro e _
  rw [List.map_map]
  rfl

theorem Operator.marker?_eq_none_iff {op : Operator} : op.marker? = none ↔ op = simple := by
  cases op <;> simp [marker?]

namespace Place

variable {e : Expression}

@[simp] theorem ofVarspecs_singleton (v : Varspec) : ofVarspecs e [v] = [occurrence e v] :=
  List.intercalate_singleton

@[simp] theorem ofVarspecs_cons_cons (v w : Varspec) (varspecs : List Varspec) :
    ofVarspecs e (v :: w :: varspecs) =
      occurrence e v :: char e.operator.joiner :: ofVarspecs e (w :: varspecs) := by
  simp [ofVarspecs]

theorem token_occurrence (v : Varspec) : (occurrence e v).token = Pattern.groupOf e := by
  simp only [token, Pattern.groupOf, Operator.marker?_eq_none_iff]

theorem map_token_ofVarspecs (varspecs : List Varspec) :
    (ofVarspecs e varspecs).map token = Pattern.groupsOf e varspecs := by
  induction varspecs with
  | nil => rfl
  | cons v varspecs ih =>
      cases varspecs with
      | nil => simp [token_occurrence]
      | cons w varspecs =>
          rw [ofVarspecs_cons_cons, Pattern.groupsOf_cons_cons, List.map_cons, List.map_cons, ih,
            token_occurrence]
          rfl

theorem filterMap_occurrence?_ofVarspecs (varspecs : List Varspec) :
    (ofVarspecs e varspecs).filterMap occurrence? = varspecs.map fun v => (e, v) := by
  induction varspecs with
  | nil => rfl
  | cons v varspecs ih =>
      cases varspecs with
      | nil => rfl
      | cons w varspecs =>
          rw [ofVarspecs_cons_cons, List.filterMap_cons_some (by rfl),
            List.filterMap_cons_none (by rfl), ih]
          rfl

theorem map_token_ofSegments (segments : List (Segment Expression)) :
    (ofSegments segments).map token = Pattern.ofSegments segments := by
  rw [ofSegments, List.map_flatMap, Pattern.ofSegments]
  apply List.flatMap_congr
  intro segment _
  cases segment with
  | literal run =>
      rw [ofSegment, Pattern.ofSegment, List.map_map]
      rfl
  | expression e => exact map_token_ofVarspecs e.varspecs

theorem filterMap_occurrence?_ofSegments (segments : List (Segment Expression)) :
    (ofSegments segments).filterMap occurrence? = Segment.occurrences segments := by
  induction segments with
  | nil => rfl
  | cons segment segments ih =>
      rw [ofSegments, List.flatMap_cons, List.filterMap_append]
      change _ ++ (ofSegments segments).filterMap occurrence? = _
      rw [ih]
      cases segment with
      | literal run =>
          have none : (run.map char).filterMap occurrence? = [] := by
            simp [List.filterMap_map, Function.comp_def, occurrence?]
          rw [ofSegment, none]
          rfl
      | expression e =>
          rw [ofSegment, filterMap_occurrence?_ofVarspecs]
          rfl

theorem isGroup_token (place : Place) :
    Pattern.isGroup place.token = place.occurrence?.isSome := by
  cases place with
  | char c => rfl
  | occurrence e v =>
      rw [token]
      split <;> rfl

theorem filter_isGroup_map_token (places : List Place) :
    (places.map token).filter Pattern.isGroup =
      (places.filterMap occurrence?).map fun occurrence => Pattern.groupOf occurrence.1 := by
  induction places with
  | nil => rfl
  | cons place places ih =>
      cases place with
      | char c => exact ih
      | occurrence e v =>
          have isGroup : Pattern.isGroup (Pattern.groupOf e) = true := by
            rw [← token_occurrence v, isGroup_token]
            rfl
          rw [List.map_cons, token_occurrence, List.filter_cons_of_pos isGroup, ih,
            List.filterMap_cons_some (by rfl)]
          rfl

end Place

/-- The source is read as these lexemes and says what stands at these places. No operator is left
bare, and no backslash stands before a letter or a digit, where it would not make a literal. -/
structure Encodes (source : Text) (lexemes : List Lexeme) (places : List Place) : Prop where
  reading : Lexeme.ofSource? source = some lexemes
  tokens : lexemes.map Lexeme.token = places.map Place.token
  bare : ∀ c, .bare c ∈ lexemes → c ∉ Token.metacharacters
  escaped : ∀ c, .escaped c ∈ lexemes → c.isLetter = false ∧ c.isDigit = false

theorem encodes_source {p : Pattern} {places : List Place} (same : p = places.map Place.token) :
    Encodes p.source (p.map Lexeme.ofToken) places := by
  have reading := Lexeme.ofSource?_source p
  obtain ⟨lexemes, whole, regular, _⟩ := Lexeme.read_eq_ok_iff.mp (Pattern.read_source p 0)
  rw [reading, Option.some.injEq] at whole
  subst whole
  constructor
  case reading => exact reading
  case tokens =>
    rw [List.map_map, ← same]
    exact (List.map_congr_left fun token _ => Lexeme.token_ofToken token).trans (List.map_id p)
  case bare => exact fun c member => regular _ member
  case escaped => exact fun c member => regular _ member

/-- The source encodes the places of the template, whatever its literal runs contain. So it is
always a pattern, with as many groups as there are variables, the groups and the names standing in
the order in which the variables occur. -/
theorem Template.patternSource_encodes (t : Template) (segments : List (Segment Expression))
    (parsed : t.segments = .ok segments) :
    ∃ source lexemes pattern names, t.patternSource = .ok source ∧ t.variables = .ok names ∧
      Encodes source lexemes (Place.ofSegments segments) ∧
      Compiled.make patternSource t = .ok ⟨source, pattern⟩ ∧
      pattern = lexemes.map Lexeme.token ∧ pattern.groups = names.length ∧
      pattern.filter Pattern.isGroup = (Segment.occurrences segments).map (fun occurrence =>
        if occurrence.1.operator.marker? = none then Token.plain else Token.free) ∧
      names = (Segment.occurrences segments).map fun occurrence => occurrence.2.name := by
  have tokens : Pattern.ofSegments segments = (Place.ofSegments segments).map Place.token :=
    (Place.map_token_ofSegments segments).symm
  have encodes := encodes_source tokens
  have listed := Segment.names_eq_map_occurrences segments
  have groups : (Pattern.ofSegments segments).filter Pattern.isGroup =
      (Segment.occurrences segments).map fun occurrence => Pattern.groupOf occurrence.1 := by
    rw [tokens, Place.filter_isGroup_map_token, Place.filterMap_occurrence?_ofSegments]
  refine ⟨_, _, Pattern.ofSegments segments, _, ?_, variables_eq parsed, encodes,
    make_patternSource parsed, ?_, ?_, ?_, listed⟩
  · rw [patternSource, parsed]
    rfl
  · rw [encodes.tokens, tokens]
  · rw [Pattern.groups, List.countP_eq_length_filter, groups, listed, List.length_map,
      List.length_map]
  · rw [groups]
    simp only [Pattern.groupOf, Operator.marker?_eq_none_iff]

theorem Template.patternSource_encodes_lookalike :
    Template.segments ⟨"\\d(.*)\x7ba,b\x7d.\x7b+c\x7d"⟩ =
      .ok [.literal "\\d(.*)",
        .expression ⟨"a,b", .simple, [⟨"a", false, none⟩, ⟨"b", false, none⟩]⟩, .literal ".",
        .expression ⟨"+c", .reserved, [⟨"c", false, none⟩]⟩] ∧
    ∃ pattern, Compiled.make patternSource ⟨"\\d(.*)\x7ba,b\x7d.\x7b+c\x7d"⟩ =
        .ok ⟨"\\\\d\\(\\.\\*\\)([A-Za-z0-9%_.~\\-]+),([A-Za-z0-9%_.~\\-]+)\\.(.*)", pattern⟩ ∧
      pattern.filter Pattern.isGroup = [.plain, .plain, .free] := by
  have parsed : Template.segments ⟨"\\d(.*)\x7ba,b\x7d.\x7b+c\x7d"⟩ =
      .ok [.literal "\\d(.*)",
        .expression ⟨"a,b", .simple, [⟨"a", false, none⟩, ⟨"b", false, none⟩]⟩, .literal ".",
        .expression ⟨"+c", .reserved, [⟨"c", false, none⟩]⟩] := by cbv
  obtain ⟨source, _, pattern, _, made, _, _, compiled, _, _, groups, _⟩ :=
    patternSource_encodes _ _ parsed
  have written : source =
      "\\\\d\\(\\.\\*\\)([A-Za-z0-9%_.~\\-]+),([A-Za-z0-9%_.~\\-]+)\\.(.*)" := by
    rw [patternSource, parsed] at made
    exact (Except.ok.inj made).symm.trans (by decide)
  rw [written] at compiled
  exact ⟨parsed, pattern, compiled, groups⟩

end UriTemplate
