import UriTemplate.Proofs.Extraction.Event
import UriTemplate.Proofs.Extraction.Recency

/-!
What the reports of a run account for. A step reports a pattern that was not remembered, and, if it
says that nothing was extracted, the one reason for it; so the reports of a run explain its answers
and the counters of the cache.
-/

namespace UriTemplate

def Fault.isUnreadable : Fault → Bool
  | unreadablePattern .. => true
  | _ => false

def Compiled.isUnreadable : Except Fault Compiled → Bool
  | .ok _ => false
  | .error fault => fault.isUnreadable

def Answer.isNothing : Answer → Bool
  | extracted values => values.isNone
  | verdict admitted => !admitted
  | _ => false

def Outcome.isNothing (outcome : Outcome Answer) : Bool :=
  match outcome.result with
  | .ok answer => answer.isNothing
  | .error _ => false

/-- The template that a request compiles and reports on, and what is matched with its pattern. -/
def Request.subject? : Request → Option (Template × Option Datum)
  | extract template candidate => some (template, some candidate)
  | admits template candidate => some (template, some candidate)
  | compile template => some (template, none)
  | _ => none

def Request.isFill : Request → Bool
  | fill .. => true
  | _ => false

def Step.reports (step : Step) (cache : PatternCache) : List Event := (step.run cache).events

def Step.outcomes (step : Step) (cache : PatternCache) : List (Outcome Answer) := [step.run cache]

namespace Outcome

@[simp] theorem events_map {α β : Type} (f : α → β) (outcome : Outcome α) :
    (outcome.map f).events = outcome.events := rfl

theorem isNothing_map {outcome : Outcome (Option Extracted)} {answer : Option Extracted → Answer}
    (faithful : ∀ values, (answer values).isNothing = values.isNone) :
    (outcome.map answer).isNothing = true ↔ outcome.result = .ok none := by
  rw [isNothing, map]
  cases outcome.result with
  | error fault => simp [Except.map]
  | ok values => simp [Except.map, faithful]

end Outcome

namespace PatternCache

def log (level : Level) (steps : List Step) : List Event :=
  along (fun step cache => Event.atLeast level (step.reports cache)) empty steps

variable {cache : PatternCache} {synthesis : Synthesis} {t : Template}

/-! What one step reports. -/

theorem result_compileReporting : (cache.compileReporting synthesis t).result =
    (cache.compile synthesis t).1 := rfl

theorem events_compileReporting (cache : PatternCache) (synthesis : Synthesis) (t : Template) :
    (∃ compiled, t ∉ cache.templates ∧ (cache.compile synthesis t).1 = .ok compiled ∧
      cache.call synthesis t = ⟨t, false, true⟩ ∧
      (cache.compileReporting synthesis t).events = [.compiled t compiled.source]) ∨
    ((∀ compiled, t ∉ cache.templates → (cache.compile synthesis t).1 ≠ .ok compiled) ∧
      (cache.call synthesis t).remembered = (cache.call synthesis t).returned ∧
      (cache.compileReporting synthesis t).events = []) := by
  obtain ⟨compiled, called, found, compiles⟩ | ⟨compiled, called, forgotten, compiles⟩ |
    ⟨fault, called, forgotten, fails⟩ := call_cases cache synthesis t
  · have member := exists_find?_iff.mp ⟨compiled, found⟩
    refine Or.inr ⟨fun _ absent => absurd member absent, by rw [called], ?_⟩
    simp only [compileReporting, compiles, found]
  · refine Or.inl ⟨compiled, find?_eq_none_iff.mp forgotten, by rw [compiles], called, ?_⟩
    simp only [compileReporting, compiles, forgotten]
  · refine Or.inr ⟨fun _ _ => by simp [fails], by rw [called], ?_⟩
    simp only [compileReporting, fails, forgotten]

theorem events_compileReporting_of_error {fault : Fault}
    (fails : (cache.compile synthesis t).1 = .error fault) :
    (cache.compileReporting synthesis t).events = [] := by
  obtain ⟨compiled, _, compiles, _⟩ | ⟨_, _, silent⟩ := events_compileReporting cache synthesis t
  · rw [fails] at compiles
    simp at compiles
  · exact silent

theorem extract_cases (cache : PatternCache) (synthesis : Synthesis) (t : Template)
    (candidate : Datum) :
    (∃ fault, fault.isUnreadable = true ∧ (cache.compile synthesis t).1 = .error fault ∧
      (cache.extract synthesis t candidate).result = .ok none ∧
      (cache.extract synthesis t candidate).events = [.unextractable fault]) ∨
    (∃ compiled text, (cache.compile synthesis t).1 = .ok compiled ∧ candidate.toText = .ok text ∧
      (cache.extract synthesis t candidate).result = .ok none ∧
      (cache.extract synthesis t candidate).events =
        (cache.compileReporting synthesis t).events ++ [.mismatch t text]) ∨
    (Compiled.isUnreadable (cache.compile synthesis t).1 = false ∧
      (cache.extract synthesis t candidate).result ≠ .ok none ∧
      (cache.extract synthesis t candidate).events =
        (cache.compileReporting synthesis t).events) := by
  unfold extract
  simp only [result_compileReporting]
  cases compiles : (cache.compile synthesis t).1 with
  | error fault =>
      have silent := events_compileReporting_of_error compiles
      cases fault with
      | unreadablePattern template source defect =>
          exact Or.inl ⟨_, rfl, rfl, rfl, by rw [silent]; rfl⟩
      | _ => exact Or.inr (Or.inr ⟨rfl, by simp, rfl⟩)
  | ok compiled =>
      cases written : candidate.toText with
      | error fault => exact Or.inr (Or.inr ⟨rfl, by simp, rfl⟩)
      | ok text =>
          dsimp only
          split
          · exact Or.inr (Or.inl ⟨compiled, text, rfl, rfl, rfl, rfl⟩)
          · rename_i something
            exact Or.inr (Or.inr ⟨rfl, something, rfl⟩)

theorem mem_compileReporting {event : Event} :
    event ∈ (cache.compileReporting synthesis t).events ↔
      ∃ source, event = .compiled t source ∧ t ∉ cache.templates ∧
        ∃ pattern, (cache.compile synthesis t).1 = .ok ⟨source, pattern⟩ := by
  obtain ⟨⟨source, pattern⟩, absent, compiles, _, events⟩ | ⟨known, _, events⟩ :=
    events_compileReporting cache synthesis t
  · rw [events, List.mem_singleton, compiles]
    constructor
    · rintro rfl
      exact ⟨source, rfl, absent, pattern, rfl⟩
    · rintro ⟨_, rfl, _, _, same⟩
      cases same
      rfl
  · rw [events]
    constructor
    · simp
    · rintro ⟨source, _, absent, pattern, compiles⟩
      exact absurd compiles (known _ absent)

theorem pairwise_compileReporting {related : Event → Event → Prop} :
    (cache.compileReporting synthesis t).events.Pairwise related := by
  obtain ⟨_, _, _, _, events⟩ | ⟨_, _, events⟩ := events_compileReporting cache synthesis t
  · rw [events]
    exact List.pairwise_singleton _ _
  · rw [events]
    exact List.Pairwise.nil

theorem countP_isWarning_compileReporting :
    (cache.compileReporting synthesis t).events.countP Event.isWarning = 0 := by
  rw [List.countP_eq_zero]
  intro event member
  obtain ⟨source, rfl, _⟩ := mem_compileReporting.mp member
  exact Bool.false_ne_true

theorem countP_explains_compileReporting :
    (cache.compileReporting synthesis t).events.countP Event.explains = 0 := by
  rw [List.countP_eq_zero]
  intro event member
  obtain ⟨source, rfl, _⟩ := mem_compileReporting.mp member
  exact Bool.false_ne_true

/-- The reports of a step that compiles one template, and matches one candidate or none. -/
structure Accounts (cache : PatternCache) (synthesis : Synthesis) (t : Template)
    (candidate : Option Datum) (outcome : Outcome Answer) : Prop where
  compiled : ∀ u source, .compiled u source ∈ outcome.events ↔
    u = t ∧ t ∉ cache.templates ∧ ∃ pattern, (cache.compile synthesis t).1 = .ok ⟨source, pattern⟩
  unextractable : ∀ fault, .unextractable fault ∈ outcome.events ↔
    candidate.isSome = true ∧ fault.isUnreadable = true ∧
      (cache.compile synthesis t).1 = .error fault
  warned : outcome.events.countP Event.isWarning =
    if candidate.isSome && Compiled.isUnreadable (cache.compile synthesis t).1 then 1 else 0
  mismatch : (∃ u text, .mismatch u text ∈ outcome.events) ↔
    outcome.isNothing = true ∧ ∃ compiled, (cache.compile synthesis t).1 = .ok compiled
  quoted : ∀ u text, .mismatch u text ∈ outcome.events →
    u = t ∧ ∃ datum, candidate = some datum ∧ datum.toText = .ok text
  order : outcome.events.Pairwise fun earlier later =>
    earlier.isCompiled = true ∧ later.isMismatch = true
  explained : outcome.events.countP Event.explains = if outcome.isNothing then 1 else 0

theorem accounts_compile (cache : PatternCache) (synthesis : Synthesis) (t : Template) :
    Accounts cache synthesis t none
      ((cache.compileReporting synthesis t).map fun compiled => .source compiled.source) := by
  have something : ((cache.compileReporting synthesis t).map
      fun compiled => Answer.source compiled.source).isNothing = false := by
    rw [Outcome.isNothing, Outcome.map]
    cases (cache.compileReporting synthesis t).result <;> rfl
  constructor
  case order => exact pairwise_compileReporting
  all_goals simp [something, mem_compileReporting, countP_isWarning_compileReporting,
    countP_explains_compileReporting]

theorem accounts_extract (cache : PatternCache) (synthesis : Synthesis) (t : Template)
    (candidate : Datum) {answer : Option Extracted → Answer}
    (faithful : ∀ values, (answer values).isNothing = values.isNone) :
    Accounts cache synthesis t (some candidate)
      ((cache.extract synthesis t candidate).map answer) := by
  obtain ⟨fault, unreadable, fails, result, events⟩ |
    ⟨compiled, text, compiles, written, result, events⟩ | ⟨readable, something, events⟩ :=
      extract_cases cache synthesis t candidate
  · have nothing := (Outcome.isNothing_map faithful).mpr result
    constructor
    case unextractable =>
      intro other
      rw [Outcome.events_map, events, List.mem_singleton, Event.unextractable.injEq, fails,
        Except.error.injEq]
      constructor
      · rintro rfl
        exact ⟨rfl, unreadable, rfl⟩
      · rintro ⟨_, _, same⟩
        exact same.symm
    all_goals
      simp [nothing, events, fails, unreadable, Compiled.isUnreadable, Event.isWarning, Event.level,
        Event.explains, Event.isCompiled]
  · have nothing := (Outcome.isNothing_map faithful).mpr result
    constructor
    case order =>
      rw [Outcome.events_map, events, List.pairwise_append]
      refine ⟨pairwise_compileReporting, List.pairwise_singleton _ _, ?_⟩
      intro earlier first later last
      obtain ⟨source, rfl, _⟩ := mem_compileReporting.mp first
      rw [List.mem_singleton.mp last]
      exact ⟨rfl, rfl⟩
    case quoted =>
      simpa [events, mem_compileReporting] using written
    all_goals
      simp [nothing, events, compiles, mem_compileReporting, countP_isWarning_compileReporting,
        countP_explains_compileReporting, Compiled.isUnreadable, Event.isWarning, Event.level,
        Event.explains, Event.isCompiled]
  · have something := Bool.eq_false_iff.mpr (mt (Outcome.isNothing_map faithful).mp something)
    constructor
    case unextractable =>
      simp only [Outcome.events_map, events, mem_compileReporting]
      intro fault
      constructor
      · simp
      · rintro ⟨_, unreadable, fails⟩
        rw [fails] at readable
        exact absurd (readable.symm.trans unreadable) Bool.false_ne_true
    case order =>
      rw [Outcome.events_map, events]
      exact pairwise_compileReporting
    all_goals
      simp [something, events, mem_compileReporting, countP_isWarning_compileReporting, readable,
        countP_explains_compileReporting]

theorem events_fill (cache : PatternCache) (synthesis : Synthesis) (templates : List Template) :
    (cache.fill synthesis templates).events = [] := by
  induction templates generalizing cache with
  | nil => rfl
  | cons t rest ih =>
      rw [fill]
      split
      · exact ih _
      · rfl

theorem accounts_run {step : Step} {candidate : Option Datum}
    (subject : step.request.subject? = some (t, candidate)) (cache : PatternCache) :
    Accounts cache step.condition.synthesis t candidate (step.run cache) := by
  rcases step with ⟨request, condition⟩
  cases request with
  | extract u datum =>
      cases subject
      exact accounts_extract cache condition.synthesis t datum fun _ => rfl
  | admits u datum =>
      cases subject
      exact accounts_extract cache condition.synthesis t datum fun values => by cases values <;> rfl
  | compile u =>
      cases subject
      exact accounts_compile cache condition.synthesis t
  | _ => simp [Request.subject?] at subject

theorem silent_run {step : Step} (unreported : step.request.subject? = none)
    (cache : PatternCache) :
    (step.run cache).events = [] ∧ (step.run cache).isNothing = false := by
  rcases step with ⟨request, condition⟩
  cases request with
  | fill stem first stop =>
      refine ⟨events_fill cache condition.synthesis _, ?_⟩
      change Outcome.isNothing (Outcome.map _ (cache.fill condition.synthesis _)) = false
      rw [Outcome.isNothing, Outcome.map]
      cases (cache.fill condition.synthesis _).result <;> rfl
  | clear => exact ⟨rfl, rfl⟩
  | counters => exact ⟨rfl, rfl⟩
  | _ => simp [Request.subject?] at unreported

/-! Whole runs. -/

section

variable {α β : Type} {observe : Step → PatternCache → List α}
  {other : Step → PatternCache → List β} {p : α → Bool} {q : β → Bool} {steps : List Step}

theorem countP_along
    (agree : ∀ step ∈ steps, ∀ cache, (observe step cache).countP p = (other step cache).countP q)
    (cache : PatternCache) :
    (along observe cache steps).countP p = (along other cache steps).countP q := by
  induction steps generalizing cache with
  | nil => rfl
  | cons step steps ih =>
      rw [List.forall_mem_cons] at agree
      rw [along, along, List.countP_append, List.countP_append, agree.1, ih agree.2]

theorem along_filter (cache : PatternCache) :
    along (fun step cache => (observe step cache).filter p) cache steps =
      (along observe cache steps).filter p := by
  induction steps generalizing cache with
  | nil => rfl
  | cons step steps ih => rw [along, along, List.filter_append, ih]

end

theorem countP_isCompiled_compileReporting :
    (cache.compileReporting synthesis t).events.countP Event.isCompiled =
      [cache.call synthesis t].countP fun call => !call.remembered && call.returned := by
  obtain ⟨_, _, _, called, events⟩ | ⟨_, same, events⟩ :=
    events_compileReporting cache synthesis t
  · rw [events, called]
    rfl
  · rw [events, List.countP_singleton, same]
    simp

theorem countP_isCompiled_extract (candidate : Datum) :
    (cache.extract synthesis t candidate).events.countP Event.isCompiled =
      (cache.compileReporting synthesis t).events.countP Event.isCompiled := by
  obtain ⟨_, _, fails, _, events⟩ | ⟨_, _, _, _, _, events⟩ | ⟨_, _, events⟩ :=
    extract_cases cache synthesis t candidate
  · rw [events, events_compileReporting_of_error fails]
    rfl
  · rw [events, List.countP_append]
    rfl
  · rw [events]

theorem countP_isCompiled_reports {step : Step} (reporting : step.request.isFill = false)
    (cache : PatternCache) :
    (step.reports cache).countP Event.isCompiled =
      (step.calls cache).countP fun call => !call.remembered && call.returned := by
  rcases step with ⟨request, condition⟩
  cases request with
  | extract t candidate =>
      rw [Step.calls, Request.templates, calls_singleton, ← countP_isCompiled_compileReporting,
        ← countP_isCompiled_extract candidate]
      rfl
  | admits t candidate =>
      rw [Step.calls, Request.templates, calls_singleton, ← countP_isCompiled_compileReporting,
        ← countP_isCompiled_extract candidate]
      rfl
  | compile t =>
      rw [Step.calls, Request.templates, calls_singleton, ← countP_isCompiled_compileReporting]
      rfl
  | fill stem first stop => exact absurd reporting.symm Bool.false_ne_true
  | clear => rfl
  | counters => rfl

theorem countP_explains_reports (step : Step) (cache : PatternCache) :
    (step.reports cache).countP Event.explains =
      (step.outcomes cache).countP Outcome.isNothing := by
  rw [Step.outcomes, List.countP_singleton]
  cases subject : step.request.subject? with
  | none =>
      obtain ⟨silent, something⟩ := silent_run subject cache
      rw [Step.reports, silent, something]
      rfl
  | some pair => exact (accounts_run subject cache).explained

theorem Reflects.misses_eq {calls : List Call} (reflects : Reflects calls cache) :
    cache.misses = calls.countP (fun call => !call.remembered && call.returned) +
      calls.countP fun call => !call.returned := by
  rw [reflects.misses, List.countP_eq_countP_filter_add calls _ Call.returned, List.countP_filter,
    List.countP_filter]
  congr 1
  apply List.countP_congr
  intro call listed
  cases remembered : call.remembered with
  | false => simp
  | true => simp [reflects.served call listed remembered]

theorem atLeast_debug (events : List Event) : Event.atLeast .debug events = events := by
  rw [Event.atLeast, List.filter_eq_self]
  intro event _
  cases event <;> rfl

theorem atLeast_warning (events : List Event) :
    Event.atLeast .warning events = events.filter Event.isWarning := by
  apply List.filter_congr
  intro event _
  cases event <;> rfl

theorem log_eq (level : Level) (steps : List Step) :
    log level steps = Event.atLeast level (along Step.reports empty steps) :=
  along_filter empty

/-- The words of a report say its kind, and the reports of every step account for what it did. Of a
run in which no step is silent about its compilations, they account for the misses since the last
clear; one report explains each answer that nothing was extracted; and at the level of warnings
there are only the warnings. -/
theorem log_accounts (steps : List Step) :
    (∀ event : Event, event.Worded) ∧
    (∀ (step : Step) t candidate, step.request.subject? = some (t, candidate) →
      Accounts (after steps) step.condition.synthesis t candidate (step.run (after steps))) ∧
    (∀ step : Step, step.request.subject? = none → (step.run (after steps)).events = []) ∧
    ((∀ step ∈ steps, step.request.isFill = false) →
      (recent Step.reports steps).countP Event.isCompiled +
          (recent Step.calls steps).countP (fun call => !call.returned) =
        (after steps).misses) ∧
    (log .debug steps).countP Event.explains =
      (along Step.outcomes empty steps).countP Outcome.isNothing ∧
    log .debug steps = along Step.reports empty steps ∧
    log .warning steps = (log .debug steps).filter Event.isWarning := by
  have whole : log .debug steps = along Step.reports empty steps := by
    rw [log_eq, atLeast_debug]
  refine ⟨Event.worded, ?_, ?_, ?_, ?_, whole, ?_⟩
  · intro step t candidate subject
    exact accounts_run subject (after steps)
  · intro step unreported
    exact (silent_run unreported (after steps)).1
  · intro reporting
    rw [(reflects_after steps).misses_eq]
    congr 1
    apply countP_along
    intro step listed
    exact countP_isCompiled_reports
      (reporting step ((List.rtakeWhile_suffix _ _).subset listed))
  · rw [whole]
    apply countP_along
    intro step _
    exact countP_explains_reports step
  · rw [log_eq, atLeast_warning, whole]

theorem log_accounts_revisiting :
    (recent Step.reports revisiting).countP Event.isCompiled = 2 ∧
    (Step.run ⟨.extract ⟨"c"⟩ (.text "x"), .broken⟩ (after revisiting)).events.countP
      Event.isWarning = 1 ∧
    (Step.run ⟨.clear, .sound⟩ (after revisiting)).events = [] := by
  obtain ⟨_, accounts, silent, counted, _⟩ := log_accounts revisiting
  have reflects := reflects_after revisiting
  have forgotten : (after revisiting).find? ⟨"c"⟩ = none := by
    rw [find?_eq_none_iff]
    intro member
    have used := reflects.mem_used member
    rw [recent_calls_revisiting] at used
    revert used
    decide
  have fails : ((after revisiting).compile Condition.broken.synthesis ⟨"c"⟩).1 =
      .error (unreadable ⟨"c"⟩) :=
    congrArg Prod.fst (compile_failure forgotten (Compiled.make_broken ⟨"c"⟩))
  refine ⟨?_, ?_, silent ⟨.clear, .sound⟩ rfl⟩
  · have whole := counted (by decide)
    rw [reflects.misses, recent_calls_revisiting] at whole
    exact Nat.add_right_cancel whole
  · rw [(accounts ⟨.extract ⟨"c"⟩ (.text "x"), .broken⟩ ⟨"c"⟩ (some (.text "x")) rfl).warned, fails]
    rfl

end PatternCache

end UriTemplate
