import Mathlib.Data.List.Dedup
import Mathlib.Data.List.DropRight
import UriTemplate.Proofs.Extraction.Transparency

/-!
What a run of steps leaves in the pattern cache, told from the compilations since the last clear.
The templates remembered are those for which a pattern was returned last, in the order of the last
time for each; the counters count the compilations that found their template and those that did not.
-/

namespace UriTemplate

/-! Lists in which the last occurrence counts. -/

section

variable {α : Type} [DecidableEq α]

theorem dedup_concat (xs : List α) (a : α) :
    (xs ++ [a]).dedup = xs.dedup.filter (· ≠ a) ++ [a] := by
  induction xs with
  | nil => simp
  | cons x xs ih =>
      rw [List.cons_append]
      by_cases last : x = a
      · rw [List.dedup_cons_of_mem (by simp [last]), ih, last]
        by_cases again : a ∈ xs
        · rw [List.dedup_cons_of_mem again]
        · rw [List.dedup_cons_of_notMem again, List.filter_cons_of_neg (by simp)]
      · by_cases again : x ∈ xs
        · rw [List.dedup_cons_of_mem (List.mem_append_left _ again), List.dedup_cons_of_mem again,
            ih]
        · rw [List.dedup_cons_of_notMem (by simp [again, last]), List.dedup_cons_of_notMem again,
            List.filter_cons_of_pos (by simp [last]), ih, List.cons_append]

theorem length_dedup_concat_le (xs : List α) (a : α) :
    (xs ++ [a]).dedup.length ≤ xs.dedup.length + 1 := by
  rw [dedup_concat, List.length_append]
  exact Nat.add_le_add_right (List.length_filter_le _ _) 1

theorem length_dedup_concat_of_mem {xs : List α} {a : α} (member : a ∈ xs) :
    (xs ++ [a]).dedup.length = xs.dedup.length := by
  have same : List.Perm (xs ++ [a]).dedup xs.dedup := by
    rw [List.perm_ext_iff_of_nodup (List.nodup_dedup _) (List.nodup_dedup _)]
    intro b
    simp only [List.mem_dedup, List.mem_append, List.mem_singleton]
    exact or_iff_left_of_imp fun equal => equal ▸ member
  exact same.length_eq

theorem take_filter_take {xs : List α} (distinct : xs.Nodup) (n : Nat) (a : α) :
    ((xs.take (n + 1)).filter (· ≠ a)).take n = (xs.filter (· ≠ a)).take n := by
  induction xs generalizing n with
  | nil => simp
  | cons x xs ih =>
      rw [List.nodup_cons] at distinct
      rw [List.take_succ_cons]
      by_cases same : x = a
      -- There is no second one, so the filter has nothing more to remove.
      · have others : xs.filter (· ≠ a) = xs := by
          rw [List.filter_eq_self]
          intro y member
          exact decide_eq_true fun equal => distinct.1 (same ▸ equal ▸ member)
        have first : (xs.take n).filter (· ≠ a) = xs.take n := by
          rw [List.filter_eq_self] at others ⊢
          exact fun y member => others y (List.mem_of_mem_take member)
        rw [List.filter_cons_of_neg (by simp [same]), List.filter_cons_of_neg (by simp [same]),
          others, first, List.take_take, Nat.min_self]
      · rw [List.filter_cons_of_pos (by simp [same]), List.filter_cons_of_pos (by simp [same])]
        cases n with
        | zero => rfl
        | succ n => rw [List.take_succ_cons, List.take_succ_cons, ih distinct.2]

theorem take_cons_filter_take {xs : List α} (distinct : xs.Nodup) (n : Nat) (a : α) :
    (a :: (xs.take n).filter (· ≠ a)).take n = (a :: xs.filter (· ≠ a)).take n := by
  cases n with
  | zero => rfl
  | succ n => rw [List.take_succ_cons, List.take_succ_cons, take_filter_take distinct]

end

/-- A compilation in a run: whether its template was remembered, and whether a pattern was
returned. -/
structure Call where
  template : Template
  remembered : Bool
  returned : Bool
deriving DecidableEq

def Call.used (calls : List Call) : List Template :=
  (calls.filter Call.returned).map Call.template

theorem Call.used_concat {call : Call} (returned : call.returned = true) (calls : List Call) :
    used (calls ++ [call]) = used calls ++ [call.template] := by
  rw [used, List.filter_append, List.filter_singleton, returned, List.map_append]
  rfl

theorem Call.used_concat_failed {call : Call} (failed : call.returned = false) (calls : List Call) :
    used (calls ++ [call]) = used calls := by
  rw [used, List.filter_append, List.filter_singleton, failed, List.map_append]
  exact List.append_nil _

namespace PatternCache

def call (cache : PatternCache) (synthesis : Synthesis) (t : Template) : Call :=
  ⟨t, decide (t ∈ cache.templates), (cache.compile synthesis t).1.isOk⟩

/-- Templates are compiled one after the other until a compilation fails. -/
def calls (cache : PatternCache) (synthesis : Synthesis) : List Template → List Call
  | [] => []
  | t :: rest =>
    cache.call synthesis t ::
      match cache.compile synthesis t with
      | (.ok _, next) => next.calls synthesis rest
      | (.error _, _) => []

end PatternCache

def Step.calls (step : Step) (cache : PatternCache) : List Call :=
  cache.calls step.condition.synthesis step.request.templates

namespace PatternCache

/-! Runs, observed step by step. -/

def along {α : Type} (observe : Step → PatternCache → List α) (cache : PatternCache) :
    List Step → List α
  | [] => []
  | step :: rest => observe step cache ++ along observe (step.run cache).cache rest

def sinceClear (steps : List Step) : List Step := steps.rtakeWhile fun step => !step.request.isClear

/-- What is observed since the last clear. A clear leaves the empty cache. -/
def recent {α : Type} (observe : Step → PatternCache → List α) (steps : List Step) : List α :=
  along observe empty (sinceClear steps)

section

variable {α : Type} {observe : Step → PatternCache → List α} {steps : List Step} {step : Step}

theorem along_append (cache : PatternCache) (steps others : List Step) :
    along observe cache (steps ++ others) = along observe cache steps ++
      along observe (steps.foldl (fun cache step => (step.run cache).cache) cache) others := by
  induction steps generalizing cache with
  | nil => rfl
  | cons step steps ih =>
      rw [List.cons_append, along, along, ih, List.append_assoc]
      rfl

theorem along_concat (steps : List Step) (step : Step) :
    along observe empty (steps ++ [step]) =
      along observe empty steps ++ observe step (after steps) := by
  rw [along_append, along, along, List.append_nil]
  rfl

theorem sinceClear_concat_clear (clears : step.request.isClear = true) :
    sinceClear (steps ++ [step]) = [] :=
  List.rtakeWhile_concat_neg _ _ _ (by simp [clears])

theorem sinceClear_concat (stays : step.request.isClear = false) :
    sinceClear (steps ++ [step]) = sinceClear steps ++ [step] :=
  List.rtakeWhile_concat_pos _ _ _ (by simp [stays])

theorem after_sinceClear (steps : List Step) : after (sinceClear steps) = after steps := by
  induction steps using List.reverseRecOn with
  | nil => rfl
  | append_singleton steps step ih =>
      rw [after_concat]
      cases clears : step.request.isClear with
      | true => rw [sinceClear_concat_clear clears, run_clear clears]; rfl
      | false => rw [sinceClear_concat clears, after_concat, ih]

theorem recent_concat_clear (clears : step.request.isClear = true) :
    recent observe (steps ++ [step]) = [] := by
  rw [recent, sinceClear_concat_clear clears]
  rfl

theorem recent_concat (stays : step.request.isClear = false) :
    recent observe (steps ++ [step]) = recent observe steps ++ observe step (after steps) := by
  rw [recent, sinceClear_concat stays, along_concat, after_sinceClear]
  rfl

end

theorem map_fst_remember (t : Template) (compiled : Compiled)
    (entries : List (Template × Compiled)) :
    (remember t compiled entries).map Prod.fst =
      (t :: (entries.map Prod.fst).filter (· ≠ t)).take capacity := by
  rw [remember, List.map_take, List.map_cons, List.filter_map]
  rfl

/-! What the calls since the last clear leave in the cache. -/

structure Reflects (calls : List Call) (cache : PatternCache) : Prop where
  templates : cache.templates = (Call.used calls).dedup.reverse.take capacity
  hits : cache.hits = calls.countP Call.remembered
  misses : cache.misses = calls.countP fun call => !call.remembered
  distinct : (Call.used calls).dedup.length ≤ cache.misses
  served : ∀ call ∈ calls, call.remembered = true → call.returned = true

section

variable {calls : List Call} {cache : PatternCache} {synthesis : Synthesis} {t : Template}

theorem reflects_empty : Reflects [] empty where
  templates := rfl
  hits := rfl
  misses := rfl
  distinct := Nat.le_refl 0
  served := by simp

theorem Reflects.mem_used (reflects : Reflects calls cache) (member : t ∈ cache.templates) :
    t ∈ Call.used calls := by
  rw [reflects.templates] at member
  exact List.mem_dedup.mp (List.mem_reverse.mp (List.mem_of_mem_take member))

theorem Reflects.templates_remember (reflects : Reflects calls cache) (t : Template)
    (compiled : Compiled) :
    (remember t compiled cache.entries).map Prod.fst =
      (Call.used calls ++ [t]).dedup.reverse.take capacity := by
  have listed : cache.entries.map Prod.fst = (Call.used calls).dedup.reverse.take capacity :=
    reflects.templates
  have once : (Call.used calls).dedup.reverse.Nodup := List.nodup_reverse.mpr (List.nodup_dedup _)
  rw [map_fst_remember, listed, take_cons_filter_take once, dedup_concat, List.reverse_append,
    List.filter_reverse]
  rfl

theorem Reflects.hit (reflects : Reflects calls cache) (member : t ∈ cache.templates)
    (compiled : Compiled) :
    Reflects (calls ++ [⟨t, true, true⟩])
      ⟨remember t compiled cache.entries, cache.hits + 1, cache.misses⟩ where
  templates := by
    rw [Call.used_concat rfl]
    exact reflects.templates_remember t compiled
  hits := by simp [reflects.hits]
  misses := by simp [reflects.misses]
  distinct := by
    rw [Call.used_concat rfl, length_dedup_concat_of_mem (reflects.mem_used member)]
    exact reflects.distinct
  served := List.forall_mem_append.mpr ⟨reflects.served, by simp⟩

theorem Reflects.miss (reflects : Reflects calls cache) (t : Template) (compiled : Compiled) :
    Reflects (calls ++ [⟨t, false, true⟩])
      ⟨remember t compiled cache.entries, cache.hits, cache.misses + 1⟩ where
  templates := by
    rw [Call.used_concat rfl]
    exact reflects.templates_remember t compiled
  hits := by simp [reflects.hits]
  misses := by simp [reflects.misses]
  distinct := by
    rw [Call.used_concat rfl]
    exact (length_dedup_concat_le _ t).trans (Nat.add_le_add_right reflects.distinct 1)
  served := List.forall_mem_append.mpr ⟨reflects.served, by simp⟩

theorem Reflects.failure (reflects : Reflects calls cache) (t : Template) :
    Reflects (calls ++ [⟨t, false, false⟩]) ⟨cache.entries, cache.hits, cache.misses + 1⟩ where
  templates := by
    rw [Call.used_concat_failed rfl]
    exact reflects.templates
  hits := by simp [reflects.hits]
  misses := by simp [reflects.misses]
  distinct := by
    rw [Call.used_concat_failed rfl]
    exact Nat.le_succ_of_le reflects.distinct
  served := List.forall_mem_append.mpr ⟨reflects.served, by simp⟩

theorem call_cases (cache : PatternCache) (synthesis : Synthesis) (t : Template) :
    (∃ compiled, cache.call synthesis t = ⟨t, true, true⟩ ∧ cache.find? t = some compiled ∧
      cache.compile synthesis t = (.ok compiled,
        ⟨remember t compiled cache.entries, cache.hits + 1, cache.misses⟩)) ∨
    (∃ compiled, cache.call synthesis t = ⟨t, false, true⟩ ∧ cache.find? t = none ∧
      cache.compile synthesis t = (.ok compiled,
        ⟨remember t compiled cache.entries, cache.hits, cache.misses + 1⟩)) ∨
    ∃ fault, cache.call synthesis t = ⟨t, false, false⟩ ∧ cache.find? t = none ∧
      cache.compile synthesis t = (.error fault,
        ⟨cache.entries, cache.hits, cache.misses + 1⟩) := by
  obtain ⟨compiled, found, compiles⟩ | ⟨compiled, forgotten, _, compiles⟩ |
    ⟨fault, forgotten, _, fails⟩ := compile_cases cache synthesis t
  · refine Or.inl ⟨compiled, ?_, found, compiles⟩
    rw [call, compiles, decide_eq_true (exists_find?_iff.mp ⟨compiled, found⟩)]
    rfl
  · refine Or.inr (Or.inl ⟨compiled, ?_, forgotten, compiles⟩)
    rw [call, compiles, decide_eq_false (find?_eq_none_iff.mp forgotten)]
    rfl
  · refine Or.inr (Or.inr ⟨fault, ?_, forgotten, fails⟩)
    rw [call, fails, decide_eq_false (find?_eq_none_iff.mp forgotten)]
    rfl

theorem Reflects.compile (reflects : Reflects calls cache) (synthesis : Synthesis) (t : Template) :
    Reflects (calls ++ [cache.call synthesis t]) (cache.compile synthesis t).2 := by
  obtain ⟨compiled, called, found, compiles⟩ | ⟨compiled, called, _, compiles⟩ |
    ⟨fault, called, _, fails⟩ := call_cases cache synthesis t
  · rw [called, compiles]
    exact reflects.hit (exists_find?_iff.mp ⟨compiled, found⟩) compiled
  · rw [called, compiles]
    exact reflects.miss t compiled
  · rw [called, fails]
    exact reflects.failure t

theorem Reflects.fill (reflects : Reflects calls cache) (synthesis : Synthesis)
    (templates : List Template) :
    Reflects (calls ++ cache.calls synthesis templates) (cache.fill synthesis templates).cache := by
  induction templates generalizing calls cache with
  | nil =>
      rw [PatternCache.calls, List.append_nil]
      exact reflects
  | cons t rest ih =>
      have next := reflects.compile synthesis t
      rw [PatternCache.calls, PatternCache.fill, List.append_cons]
      cases compiles : cache.compile synthesis t with
      | mk result after =>
          rw [compiles] at next
          cases result with
          | ok compiled => exact ih next
          | error fault =>
              rw [List.append_nil]
              exact next

theorem calls_singleton : cache.calls synthesis [t] = [cache.call synthesis t] := by
  rw [PatternCache.calls]
  split <;> rfl

theorem Reflects.run {step : Step} (reflects : Reflects calls cache)
    (stays : step.request.isClear = false) :
    Reflects (calls ++ step.calls cache) (step.run cache).cache := by
  rw [cache_run stays]
  exact reflects.fill step.condition.synthesis step.request.templates

theorem reflects_after (steps : List Step) : Reflects (recent Step.calls steps) (after steps) := by
  induction steps using List.reverseRecOn with
  | nil => exact reflects_empty
  | append_singleton steps step ih =>
      rw [after_concat]
      cases clears : step.request.isClear with
      | true =>
          rw [recent_concat_clear clears, run_clear clears]
          exact reflects_empty
      | false =>
          rw [recent_concat clears]
          exact ih.run clears

theorem Reflects.countP_add (reflects : Reflects calls cache) :
    cache.hits + cache.misses = calls.length := by
  rw [reflects.hits, reflects.misses, List.length_eq_countP_add_countP Call.remembered]
  simp only [Bool.not_eq_true, Bool.decide_eq_false]

theorem length_entries_eq : cache.entries.length = cache.templates.length :=
  (List.length_map _).symm

theorem compile_of_not_returned (fails : (cache.call synthesis t).returned = false) :
    (cache.compile synthesis t).2 = ⟨cache.entries, cache.hits, cache.misses + 1⟩ := by
  obtain ⟨_, called, _⟩ | ⟨_, called, _⟩ | ⟨_, _, _, failure⟩ := call_cases cache synthesis t
  · rw [called] at fails
    exact absurd fails.symm Bool.false_ne_true
  · rw [called] at fails
    exact absurd fails.symm Bool.false_ne_true
  · rw [failure]

end

/-- After any run the cache holds the templates for which a pattern was returned since the last
clear, the last ones of them in the order of the last time for each, and it counts the calls. A call
that fails is a miss and leaves the entries as they are. -/
theorem recency_after (steps : List Step) :
    (after steps).templates.Nodup ∧
    (after steps).templates.reverse =
      (Call.used (recent Step.calls steps)).dedup.rtake capacity ∧
    (after steps).entries.length =
      min capacity (Call.used (recent Step.calls steps)).dedup.length ∧
    (after steps).entries.length ≤ capacity ∧
    (after steps).entries.length ≤ (after steps).misses ∧
    (after steps).hits + (after steps).misses = (recent Step.calls steps).length ∧
    (after steps).misses = (recent Step.calls steps).countP (fun call => !call.remembered) ∧
    (∀ call ∈ recent Step.calls steps, call.returned = false → call.remembered = false) ∧
    (∀ condition, (Step.run ⟨.counters, condition⟩ (after steps)).result =
      .ok (.counters (after steps).hits (after steps).misses capacity
        (after steps).entries.length)) ∧
    ∀ (cache : PatternCache) synthesis t, (cache.call synthesis t).returned = false →
      (cache.compile synthesis t).2 = ⟨cache.entries, cache.hits, cache.misses + 1⟩ := by
  have reflects := reflects_after steps
  have size : (after steps).entries.length =
      min capacity (Call.used (recent Step.calls steps)).dedup.length := by
    rw [length_entries_eq, reflects.templates, List.length_take, List.length_reverse]
  refine ⟨?_, ?_, size, length_after_le steps, ?_, reflects.countP_add, reflects.misses, ?_, ?_, ?_⟩
  · rw [reflects.templates]
    exact (List.nodup_reverse.mpr (List.nodup_dedup _)).sublist (List.take_sublist _ _)
  · rw [reflects.templates, List.rtake_eq_reverse_take_reverse]
  · rw [size]
    exact (Nat.min_le_right _ _).trans reflects.distinct
  · intro call listed fails
    cases remembered : call.remembered with
    | false => rfl
    | true => exact (reflects.served call listed remembered).symm.trans fails
  · intro condition
    rfl
  · intro cache synthesis t fails
    exact compile_of_not_returned fails

def revisiting : List Step :=
  [⟨.compile ⟨"c"⟩, .sound⟩, ⟨.clear, .sound⟩, ⟨.compile ⟨"a"⟩, .sound⟩, ⟨.compile ⟨"b"⟩, .sound⟩,
    ⟨.extract ⟨"a"⟩ (.text "x"), .sound⟩, ⟨.compile ⟨"c"⟩, .broken⟩]

theorem recent_calls_revisiting : recent Step.calls revisiting =
    [⟨⟨"a"⟩, false, true⟩, ⟨⟨"b"⟩, false, true⟩, ⟨⟨"a"⟩, true, true⟩, ⟨⟨"c"⟩, false, false⟩] := by
  have made (name : Text) (closed : Template.segments ⟨name⟩ = .ok [.literal name]) :
      ∃ compiled, Compiled.make Template.patternSource ⟨name⟩ = .ok compiled :=
    ⟨_, Template.make_patternSource closed⟩
  obtain ⟨a, madeA⟩ := made "a" (by cbv)
  obtain ⟨b, madeB⟩ := made "b" (by cbv)
  have one : empty.compile Condition.sound.synthesis ⟨"a"⟩ = (.ok a, ⟨[(⟨"a"⟩, a)], 0, 1⟩) :=
    compile_miss rfl madeA
  have two : PatternCache.compile ⟨[(⟨"a"⟩, a)], 0, 1⟩ Condition.sound.synthesis ⟨"b"⟩ =
      (.ok b, ⟨[(⟨"b"⟩, b), (⟨"a"⟩, a)], 0, 2⟩) :=
    compile_miss rfl madeB
  have three : PatternCache.compile ⟨[(⟨"b"⟩, b), (⟨"a"⟩, a)], 0, 2⟩ Condition.sound.synthesis
      ⟨"a"⟩ = (.ok a, ⟨[(⟨"a"⟩, a), (⟨"b"⟩, b)], 1, 2⟩) :=
    compile_hit rfl
  have four : PatternCache.compile ⟨[(⟨"a"⟩, a), (⟨"b"⟩, b)], 1, 2⟩ Condition.broken.synthesis
      ⟨"c"⟩ = (.error (unreadable ⟨"c"⟩), ⟨[(⟨"a"⟩, a), (⟨"b"⟩, b)], 1, 3⟩) :=
    compile_failure rfl (Compiled.make_broken ⟨"c"⟩)
  have compiles (t : Template) (cache : PatternCache) :
      (Step.run ⟨.compile t, .sound⟩ cache).cache = (cache.compile Condition.sound.synthesis t).2 :=
    cache_run_single rfl cache
  have extracts (t : Template) (candidate : Datum) (cache : PatternCache) :
      (Step.run ⟨.extract t candidate, .sound⟩ cache).cache =
        (cache.compile Condition.sound.synthesis t).2 :=
    cache_run_single rfl cache
  have since : sinceClear revisiting = revisiting.drop 2 := rfl
  rw [recent, since, revisiting, List.drop_succ_cons, List.drop_succ_cons, List.drop_zero]
  simp only [along, Step.calls, Request.templates, calls_singleton, call, compiles, extracts, one,
    two, three, four]
  rfl

theorem recency_after_revisiting :
    (after revisiting).templates.reverse = [⟨"b"⟩, ⟨"a"⟩] ∧ (after revisiting).hits = 1 ∧
      (after revisiting).misses = 3 := by
  obtain ⟨_, order, _, _, _, total, misses, _⟩ := recency_after revisiting
  rw [recent_calls_revisiting] at order total misses
  refine ⟨order, ?_, misses⟩
  rw [misses] at total
  exact Nat.add_right_cancel total

end PatternCache

end UriTemplate
