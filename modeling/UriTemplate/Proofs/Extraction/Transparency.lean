import UriTemplate.Interface
import UriTemplate.Proofs.Extraction.Cache
import UriTemplate.Proofs.Extraction.Reading
import UriTemplate.Proofs.Fault
import UriTemplate.Proofs.Text.Percent

/-!
Remembering patterns makes no difference. Whatever has been done before, and however often pattern
sources could not be read, a request is answered as it would be with nothing remembered; and while
sources cannot be read, the templates that are remembered are served as ever.
-/

namespace UriTemplate

theorem Pattern.read_opening : read 0 "(" = .error (.unclosedGroup 0) := by
  have refused : first 0 '(' [] = .error (.unclosedGroup 0) := rfl
  change read 0 [.ofChar '('] = _
  rw [read]
  split
  · rename_i defect fails
    rw [refused] at fails
    rw [Except.error.inj fails]
  · rename_i token after reads
    rw [refused] at reads
    simp at reads

theorem Compiled.make_broken (t : Template) :
    make Condition.broken.synthesis t =
      .error (.unreadablePattern t.text "(" (.unclosedGroup 0)) := by
  have unread := Pattern.read_opening
  simp only [make, Condition.synthesis, bind, Except.bind, unread]
  rfl

theorem Compiled.make_of_condition {condition : Condition} {t : Template} {compiled : Compiled}
    (made : make condition.synthesis t = .ok compiled) :
    make Template.patternSource t = .ok compiled := by
  cases condition with
  | sound => exact made
  | broken =>
      rw [make_broken] at made
      simp at made

namespace PatternCache

def Genuine (cache : PatternCache) : Prop :=
  ∀ entry ∈ cache.entries, Compiled.make Template.patternSource entry.1 = .ok entry.2

variable {cache : PatternCache} {t : Template}

theorem genuine_empty : Genuine empty := by
  intro entry member
  simp [empty] at member

theorem genuine_remember {compiled : Compiled} {hits misses : Nat} (genuine : Genuine cache)
    (made : Compiled.make Template.patternSource t = .ok compiled) :
    Genuine ⟨remember t compiled cache.entries, hits, misses⟩ := by
  intro entry member
  rcases mem_remember member with rfl | old
  · exact made
  · exact genuine entry old

theorem Genuine.make_of_find? {compiled : Compiled} (genuine : Genuine cache)
    (found : cache.find? t = some compiled) :
    Compiled.make Template.patternSource t = .ok compiled :=
  genuine _ (mem_entries_of_find? found)

theorem Genuine.compile (genuine : Genuine cache) (condition : Condition) (t : Template) :
    Genuine (cache.compile condition.synthesis t).2 := by
  obtain ⟨compiled, found, compiles⟩ | ⟨compiled, _, made, compiles⟩ | ⟨fault, _, _, fails⟩ :=
    compile_cases cache condition.synthesis t
  · rw [compiles]
    exact genuine_remember genuine (genuine.make_of_find? found)
  · rw [compiles]
    exact genuine_remember genuine (Compiled.make_of_condition made)
  · rw [fails]
    exact genuine

theorem genuine_after (steps : List Step) : Genuine (after steps) :=
  forall_after Genuine genuine_empty (fun _ condition t genuine => genuine.compile condition t) steps

theorem Genuine.result_compile (genuine : Genuine cache) (t : Template) :
    (cache.compile Template.patternSource t).1 = Compiled.make Template.patternSource t := by
  obtain ⟨compiled, found, compiles⟩ | ⟨compiled, _, made, compiles⟩ | ⟨fault, _, failed, fails⟩ :=
    compile_cases cache Template.patternSource t
  · rw [compiles, genuine.make_of_find? found]
  · rw [compiles, made]
  · rw [fails, failed]

theorem Genuine.result_extract (genuine : Genuine cache) (t : Template) (candidate : Datum) :
    (cache.extract Template.patternSource t candidate).result = t.extractFrom candidate := by
  have compiles : (cache.compileReporting Template.patternSource t).result =
      Compiled.make Template.patternSource t := genuine.result_compile t
  unfold extract Template.extractFrom
  simp only [compiles]
  cases Compiled.make Template.patternSource t with
  | error fault => cases fault <;> rfl
  | ok compiled =>
      cases candidate.toText with
      | error fault => rfl
      | ok text =>
          change Outcome.result _ = t.extractBy compiled.pattern text
          dsimp only
          split
          · rename_i nothing
            rw [nothing]
          · rfl

theorem Genuine.result_fill (genuine : Genuine cache) (templates : List Template) :
    (cache.fill Template.patternSource templates).result =
      (templates.mapM (Compiled.make Template.patternSource)).map fun _ => () := by
  induction templates generalizing cache with
  | nil => rfl
  | cons t rest ih =>
      have compiles := genuine.result_compile t
      have kept := genuine.compile .sound t
      rw [List.mapM_cons, ← compiles]
      simp only [fill]
      change Genuine (cache.compile Template.patternSource t).2 at kept
      split
      · rename_i compiled next eq
        rw [eq] at kept ⊢
        rw [ih kept]
        cases rest.mapM (Compiled.make Template.patternSource) <;> rfl
      · rename_i fault next eq
        rw [eq]
        rfl

theorem Genuine.result_run {other : PatternCache} (genuine : Genuine cache)
    (otherGenuine : Genuine other) {request : Request} (answerable : request ≠ .counters) :
    (Step.run ⟨request, .sound⟩ cache).result = (Step.run ⟨request, .sound⟩ other).result := by
  cases request with
  | extract t candidate =>
      change Except.map _ (cache.extract Template.patternSource t candidate).result =
        Except.map _ (other.extract Template.patternSource t candidate).result
      rw [genuine.result_extract, otherGenuine.result_extract]
  | admits t candidate =>
      change Except.map _ (cache.extract Template.patternSource t candidate).result =
        Except.map _ (other.extract Template.patternSource t candidate).result
      rw [genuine.result_extract, otherGenuine.result_extract]
  | compile t =>
      change Except.map _ (cache.compile Template.patternSource t).1 =
        Except.map _ (other.compile Template.patternSource t).1
      rw [genuine.result_compile, otherGenuine.result_compile]
  | fill stem first stop =>
      change Except.map _ (cache.fill Template.patternSource _).result =
        Except.map _ (other.fill Template.patternSource _).result
      rw [genuine.result_fill, otherGenuine.result_fill]
  | clear => rfl
  | counters => exact absurd rfl answerable

theorem run_broken_of_mem (size : cache.entries.length ≤ capacity) {request : Request}
    (members : ∀ t ∈ request.templates, t ∈ cache.templates) :
    Step.run ⟨request, .broken⟩ cache = Step.run ⟨request, .sound⟩ cache := by
  cases request with
  | extract t candidate =>
      have remembered := members t (List.mem_singleton_self t)
      exact congrArg (Outcome.map Answer.extracted) (extract_of_mem remembered candidate)
  | admits t candidate =>
      have remembered := members t (List.mem_singleton_self t)
      exact congrArg (Outcome.map _) (extract_of_mem remembered candidate)
  | compile t =>
      have remembered := members t (List.mem_singleton_self t)
      exact congrArg (Outcome.map _) (compileReporting_of_mem remembered)
  | fill stem first stop => exact congrArg (Outcome.map _) (fill_of_mem size members)
  | clear => rfl
  | counters => rfl

def unreadable (t : Template) : Fault := .unreadablePattern t.text "(" (.unclosedGroup 0)

theorem compileReporting_broken (absent : t ∉ cache.templates) :
    cache.compileReporting Condition.broken.synthesis t =
      ⟨.error (unreadable t), [], { cache with misses := cache.misses + 1 }⟩ := by
  have forgotten := find?_eq_none_iff.mpr absent
  have fails : cache.compile Condition.broken.synthesis t =
      (.error (unreadable t), { cache with misses := cache.misses + 1 }) :=
    compile_failure forgotten (Compiled.make_broken t)
  simp only [compileReporting, fails, forgotten]

theorem extract_broken (absent : t ∉ cache.templates) (candidate : Datum) :
    cache.extract Condition.broken.synthesis t candidate =
      ⟨.ok none, [.unextractable (unreadable t)], { cache with misses := cache.misses + 1 }⟩ := by
  rw [extract, compileReporting_broken absent]
  rfl

/-- After any run the entries are genuine, a step under a sound condition is answered as with nothing
remembered, and a broken one as a sound one if its templates are remembered; if its template is not,
nothing is extracted and no entry is touched. -/
theorem transparent_after (steps : List Step) :
    (∀ entry ∈ (after steps).entries,
      Compiled.make Template.patternSource entry.1 = .ok entry.2) ∧
    (∀ request, request ≠ .counters →
      (Step.run ⟨request, .sound⟩ (after steps)).result =
        (Step.run ⟨request, .sound⟩ .empty).result) ∧
    (∀ t, ((after steps).compile Template.patternSource t).1 =
      Compiled.make Template.patternSource t) ∧
    (∀ request, (∀ t ∈ request.templates, t ∈ (after steps).templates) →
      Step.run ⟨request, .broken⟩ (after steps) = Step.run ⟨request, .sound⟩ (after steps)) ∧
    ∀ t, t ∉ (after steps).templates →
      (∀ candidate,
        (Step.run ⟨.extract t candidate, .broken⟩ (after steps)).result = .ok (.extracted none) ∧
        (Step.run ⟨.admits t candidate, .broken⟩ (after steps)).result = .ok (.verdict false) ∧
        (Step.run ⟨.extract t candidate, .broken⟩ (after steps)).cache.entries =
          (after steps).entries ∧
        (Step.run ⟨.admits t candidate, .broken⟩ (after steps)).cache.entries =
          (after steps).entries) ∧
      (Step.run ⟨.compile t, .broken⟩ (after steps)).result =
        .error (.unreadablePattern t.text "(" (.unclosedGroup 0)) ∧
      (Step.run ⟨.compile t, .broken⟩ (after steps)).cache.entries = (after steps).entries := by
  have genuine := genuine_after steps
  refine ⟨genuine, ?_, genuine.result_compile, ?_, ?_⟩
  · intro request answerable
    exact genuine.result_run genuine_empty answerable
  · intro request members
    exact run_broken_of_mem (length_after_le steps) members
  · intro t absent
    have compiles := compileReporting_broken absent
    refine ⟨?_, ?_, ?_⟩
    · intro candidate
      have extracts := extract_broken absent candidate
      simp only [Step.run, Request.run, extracts, Outcome.map, and_true]
      exact ⟨rfl, rfl⟩
    · simp only [Step.run, Request.run, compiles, Outcome.map]
      rfl
    · simp only [Step.run, Request.run, compiles, Outcome.map]

theorem transparent_after_failure :
    (Step.run ⟨.extract ⟨"\x7ba\x7d"⟩ (.text "x"), .broken⟩ (after
      [⟨.compile ⟨"\x7ba\x7d"⟩, .sound⟩, ⟨.compile ⟨"\x7bb\x7d"⟩, .broken⟩])).result =
        .ok (.extracted (some [("a", "x")])) ∧
    (Step.run ⟨.extract ⟨"\x7bb\x7d"⟩ (.text "x"), .broken⟩ (after
      [⟨.compile ⟨"\x7ba\x7d"⟩, .sound⟩, ⟨.compile ⟨"\x7bb\x7d"⟩, .broken⟩])).result =
        .ok (.extracted none) := by
  have parsed : Template.segments ⟨"\x7ba\x7d"⟩ =
      .ok [.expression ⟨"a", .simple, [⟨"a", false, none⟩]⟩] := by cbv
  have decoded : Percent.decode "x" = "x" := by
    rw [Percent.decode_of_ascii (by decide)]
    decide
  have captured : Pattern.captures? (Pattern.ofSegments
      [.expression ⟨"a", .simple, [⟨"a", false, none⟩]⟩]) "x" =
        some [("x" : Text)] := by decide
  have remembered : (after [⟨.compile ⟨"\x7ba\x7d"⟩, .sound⟩,
      ⟨.compile ⟨"\x7bb\x7d"⟩, .broken⟩]).templates = [⟨"\x7ba\x7d"⟩] := by
    change ((empty.compile Template.patternSource _).2.compile
      Condition.broken.synthesis _).2.templates = _
    rw [compile_miss rfl (Template.make_patternSource parsed)]
    rw [compile_failure (find?_eq_none_iff.mpr (by decide)) (Compiled.make_broken _)]
    rfl
  obtain ⟨_, sound, _, served, refused⟩ :=
    transparent_after [⟨.compile ⟨"\x7ba\x7d"⟩, .sound⟩, ⟨.compile ⟨"\x7bb\x7d"⟩, .broken⟩]
  constructor
  · rw [served _ (by simp [Request.templates, remembered]), sound _ (by simp)]
    change Except.map _ (empty.extract Template.patternSource _ _).result = _
    rw [genuine_empty.result_extract, Template.extractFrom_text, Template.extract_eq parsed,
      captured]
    simp only [Option.map_some, List.map_cons, List.map_nil, decoded]
    rfl
  · exact ((refused ⟨"\x7bb\x7d"⟩ (by rw [remembered]; decide)).1 (.text "x")).1

end PatternCache

end UriTemplate
