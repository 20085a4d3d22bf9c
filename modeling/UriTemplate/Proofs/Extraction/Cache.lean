import Mathlib.Data.List.Induction
import UriTemplate.Extraction.Session

/-!
The pattern cache over a run of steps. A compilation is a hit, a miss, or a failure that leaves the
entries alone, and a step is nothing but compilations, unless it clears the cache; so what holds of
the empty cache and is kept by a compilation holds after every run.
-/

namespace UriTemplate

def Request.templates : Request → List Template
  | extract template _ => [template]
  | admits template _ => [template]
  | compile template => [template]
  | fill stem first stop =>
    (List.range' first (stop - first)).map fun n => ⟨stem ++ Decimal.digits n⟩
  | clear => []
  | counters => []

def Request.isClear : Request → Bool
  | clear => true
  | _ => false

namespace PatternCache

variable {cache : PatternCache} {synthesis other : Synthesis} {t u : Template}
  {compiled : Compiled} {entries : List (Template × Compiled)}

theorem mem_entries_of_find? (found : cache.find? t = some compiled) :
    (t, compiled) ∈ cache.entries := by
  rw [find?, List.lookup_eq_some_iff] at found
  obtain ⟨before, rest, whole, _⟩ := found
  rw [whole]
  simp

theorem find?_eq_none_iff : cache.find? t = none ↔ t ∉ cache.templates := by
  rw [find?, List.lookup_eq_none_iff, templates, List.mem_map]
  constructor
  · rintro absent ⟨entry, member, rfl⟩
    simpa using absent entry member
  · intro absent entry member
    rw [bne_iff_ne]
    rintro rfl
    exact absent ⟨entry, member, rfl⟩

theorem exists_find?_iff : (∃ compiled, cache.find? t = some compiled) ↔ t ∈ cache.templates := by
  rw [← Option.isSome_iff_exists, Option.isSome_iff_ne_none, Ne, find?_eq_none_iff, not_not]

theorem mem_remember {entry : Template × Compiled} (member : entry ∈ remember t compiled entries) :
    entry = (t, compiled) ∨ entry ∈ entries := by
  have listed := List.mem_of_mem_take member
  rcases List.mem_cons.mp listed with new | old
  · exact Or.inl new
  · exact Or.inr (List.mem_filter.mp old).1

theorem length_remember_le : (remember t compiled entries).length ≤ capacity := by
  rw [remember, List.length_take]
  exact Nat.min_le_left _ _

theorem remember_of_mem (member : t ∈ entries.map Prod.fst) (size : entries.length ≤ capacity) :
    remember t compiled entries =
      (t, compiled) :: entries.filter fun entry => entry.1 ≠ t := by
  obtain ⟨entry, listed, same⟩ := List.mem_map.mp member
  have fewer : (entries.filter fun entry => entry.1 ≠ t).length < entries.length := by
    rw [List.length_filter_lt_length_iff_exists]
    exact ⟨entry, listed, by simp [same]⟩
  rw [remember, List.take_of_length_le]
  rw [List.length_cons]
  omega

theorem compile_hit (found : cache.find? t = some compiled) :
    cache.compile synthesis t = (.ok compiled, { cache with
      entries := remember t compiled cache.entries
      hits := cache.hits + 1 }) := by
  rw [compile, found]

theorem compile_miss (absent : cache.find? t = none)
    (made : Compiled.make synthesis t = .ok compiled) :
    cache.compile synthesis t = (.ok compiled, { cache with
      entries := remember t compiled cache.entries
      misses := cache.misses + 1 }) := by
  rw [compile, absent]
  simp only [made]

theorem compile_failure {fault : Fault} (absent : cache.find? t = none)
    (failed : Compiled.make synthesis t = .error fault) :
    cache.compile synthesis t = (.error fault, { cache with misses := cache.misses + 1 }) := by
  rw [compile, absent]
  simp only [failed]

/-- All that a compilation can do. -/
theorem compile_cases (cache : PatternCache) (synthesis : Synthesis) (t : Template) :
    (∃ compiled, cache.find? t = some compiled ∧
      cache.compile synthesis t = (.ok compiled,
        ⟨remember t compiled cache.entries, cache.hits + 1, cache.misses⟩)) ∨
    (∃ compiled, cache.find? t = none ∧ Compiled.make synthesis t = .ok compiled ∧
      cache.compile synthesis t = (.ok compiled,
        ⟨remember t compiled cache.entries, cache.hits, cache.misses + 1⟩)) ∨
    ∃ fault, cache.find? t = none ∧ Compiled.make synthesis t = .error fault ∧
      cache.compile synthesis t = (.error fault,
        ⟨cache.entries, cache.hits, cache.misses + 1⟩) := by
  cases found : cache.find? t with
  | some compiled => exact Or.inl ⟨compiled, rfl, compile_hit found⟩
  | none =>
      cases made : Compiled.make synthesis t with
      | ok compiled => exact Or.inr (Or.inl ⟨compiled, rfl, rfl, compile_miss found made⟩)
      | error fault => exact Or.inr (Or.inr ⟨fault, rfl, rfl, compile_failure found made⟩)

theorem length_compile_le (size : cache.entries.length ≤ capacity) :
    (cache.compile synthesis t).2.entries.length ≤ capacity := by
  obtain ⟨_, _, compiles⟩ | ⟨_, _, _, compiles⟩ | ⟨_, _, _, fails⟩ :=
    compile_cases cache synthesis t
  · rw [compiles]
    exact length_remember_le
  · rw [compiles]
    exact length_remember_le
  · rw [fails]
    exact size

theorem compile_of_mem (member : t ∈ cache.templates) :
    cache.compile synthesis t = cache.compile other t := by
  obtain ⟨compiled, found⟩ := exists_find?_iff.mpr member
  rw [compile_hit found, compile_hit found]

theorem mem_templates_compile (size : cache.entries.length ≤ capacity) (member : t ∈ cache.templates)
    (kept : u ∈ cache.templates) : u ∈ (cache.compile synthesis t).2.templates := by
  obtain ⟨compiled, found⟩ := exists_find?_iff.mpr member
  rw [compile_hit found, templates, remember_of_mem member size, List.map_cons, List.mem_cons]
  by_cases same : u = t
  · exact Or.inl same
  · obtain ⟨entry, listed, rfl⟩ := List.mem_map.mp kept
    refine Or.inr (List.mem_map.mpr ⟨entry, ?_, rfl⟩)
    rw [List.mem_filter]
    exact ⟨listed, decide_eq_true same⟩

theorem compileReporting_of_mem (member : t ∈ cache.templates) :
    cache.compileReporting synthesis t = cache.compileReporting other t := by
  rw [compileReporting, compileReporting, compile_of_mem member]

theorem extract_of_mem (member : t ∈ cache.templates) (candidate : Datum) :
    cache.extract synthesis t candidate = cache.extract other t candidate := by
  have same : cache.compileReporting synthesis t = cache.compileReporting other t :=
    compileReporting_of_mem member
  rw [extract, extract, same]

theorem fill_of_mem {templates : List Template} (size : cache.entries.length ≤ capacity)
    (members : ∀ t ∈ templates, t ∈ cache.templates) :
    cache.fill synthesis templates = cache.fill other templates := by
  induction templates generalizing cache with
  | nil => rfl
  | cons t rest ih =>
      rw [List.forall_mem_cons] at members
      have smaller : (cache.compile other t).2.entries.length ≤ capacity := length_compile_le size
      have same : cache.compile synthesis t = cache.compile other t := compile_of_mem members.1
      have later := ih smaller fun u listed =>
        mem_templates_compile size members.1 (members.2 u listed)
      rw [fill, fill, same]
      split
      · rename_i compiled next compiles
        rwa [compiles] at later
      · rfl

theorem cache_extract (cache : PatternCache) (synthesis : Synthesis) (t : Template)
    (candidate : Datum) :
    (cache.extract synthesis t candidate).cache = (cache.compile synthesis t).2 := by
  change _ = (cache.compileReporting synthesis t).cache
  simp only [extract]
  split
  · rfl
  · rfl
  · split
    · rfl
    · split <;> rfl

theorem cache_fill_singleton (cache : PatternCache) (synthesis : Synthesis) (t : Template) :
    (cache.fill synthesis [t]).cache = (cache.compile synthesis t).2 := by
  rw [PatternCache.fill]
  split
  · rename_i compiled next compiles
    rw [compiles]
    rfl
  · rename_i fault next fails
    rw [fails]

theorem run_clear {step : Step} (clears : step.request.isClear = true) (cache : PatternCache) :
    (step.run cache).cache = empty := by
  rcases step with ⟨request, condition⟩
  cases request with
  | clear => rfl
  | _ => exact absurd clears Bool.false_ne_true

theorem cache_run {step : Step} (stays : step.request.isClear = false) (cache : PatternCache) :
    (step.run cache).cache =
      (cache.fill step.condition.synthesis step.request.templates).cache := by
  rcases step with ⟨request, condition⟩
  cases request with
  | extract t candidate => exact (cache_extract _ _ _ _).trans (cache_fill_singleton _ _ _).symm
  | admits t candidate => exact (cache_extract _ _ _ _).trans (cache_fill_singleton _ _ _).symm
  | compile t => exact (cache_fill_singleton _ _ _).symm
  | fill stem first stop => rfl
  | clear => exact absurd stays.symm Bool.false_ne_true
  | counters => rfl

theorem cache_run_single {step : Step} (single : step.request.templates = [t])
    (cache : PatternCache) :
    (step.run cache).cache = (cache.compile step.condition.synthesis t).2 := by
  have stays : step.request.isClear = false := by
    rcases step with ⟨request, condition⟩
    cases request with
    | clear => exact absurd single.symm (List.cons_ne_nil _ _)
    | _ => rfl
  rw [cache_run stays, single, cache_fill_singleton]

section

variable {invariant : PatternCache → Prop}

theorem forall_fill
    (compile : ∀ cache t, invariant cache → invariant (cache.compile synthesis t).2)
    (templates : List Template) (cache : PatternCache) (holds : invariant cache) :
    invariant (cache.fill synthesis templates).cache := by
  induction templates generalizing cache with
  | nil => exact holds
  | cons t rest ih =>
      have kept := compile cache t holds
      simp only [fill]
      split
      · rename_i compiled next compiles
        rw [compiles] at kept
        exact ih next kept
      · rename_i fault next fails
        rw [fails] at kept
        exact kept

theorem forall_step (start : invariant empty)
    (compile : ∀ cache (condition : Condition) t, invariant cache →
      invariant (cache.compile condition.synthesis t).2)
    (step : Step) (cache : PatternCache) (holds : invariant cache) :
    invariant (step.run cache).cache := by
  cases clears : step.request.isClear with
  | true =>
      rw [run_clear clears]
      exact start
  | false =>
      rw [cache_run clears]
      exact forall_fill (fun cache t => compile cache step.condition t) _ cache holds

end

def after (steps : List Step) : PatternCache :=
  steps.foldl (fun cache step => (step.run cache).cache) empty

theorem after_concat (steps : List Step) (step : Step) :
    after (steps ++ [step]) = (step.run (after steps)).cache := by
  rw [after, List.foldl_append]
  rfl

theorem forall_after (invariant : PatternCache → Prop) (start : invariant empty)
    (compile : ∀ cache (condition : Condition) t, invariant cache →
      invariant (cache.compile condition.synthesis t).2)
    (steps : List Step) : invariant (after steps) := by
  induction steps using List.reverseRecOn with
  | nil => exact start
  | append_singleton steps step ih =>
      rw [after_concat]
      exact forall_step start compile step (after steps) ih

theorem length_after_le (steps : List Step) : (after steps).entries.length ≤ capacity := by
  apply forall_after fun cache => cache.entries.length ≤ capacity
  · simp [empty]
  · intro cache condition t size
    exact length_compile_le size

end PatternCache

end UriTemplate
