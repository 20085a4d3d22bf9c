import UriTemplate.Datum.Reading
import UriTemplate.Extraction.Cache
import UriTemplate.Extraction.Event

/-!
Sessions: requests that share one pattern cache. A request is answered, reports events, and leaves
the cache changed. Each request is given the way of making pattern sources that is in force.
-/

namespace UriTemplate

inductive Request
  | extract (template : Template) (candidate : Datum)
  | admits (template : Template) (candidate : Datum)
  | compile (template : Template)
  /-- Compiles the templates that end in the numbers from `first` up to, not including, `stop`, and
  reports nothing. -/
  | fill (stem : Text) (first stop : Nat)
  | clear
  | counters

inductive Answer
  | extracted (values : Option Extracted)
  | verdict (admitted : Bool)
  | source (source : Text)
  | counters (hits misses capacity size : Nat)
  | done

structure Outcome (α : Type) where
  result : Except Fault α
  events : List Event
  cache : PatternCache

namespace Outcome

def map {α β : Type} (f : α → β) (outcome : Outcome α) : Outcome β :=
  ⟨outcome.result.map f, outcome.events, outcome.cache⟩

end Outcome

namespace PatternCache

def compileReporting (cache : PatternCache) (synthesis : Synthesis) (t : Template) :
    Outcome Compiled :=
  let (result, after) := cache.compile synthesis t
  -- A pattern that is remembered is not compiled, so it is not reported again.
  let events := match cache.find? t, result with
    | none, .ok compiled => [Event.compiled t compiled.source]
    | _, _ => []
  ⟨result, events, after⟩

def extract (cache : PatternCache) (synthesis : Synthesis) (t : Template) (candidate : Datum) :
    Outcome (Option Extracted) :=
  let compilation := cache.compileReporting synthesis t
  match compilation.result with
  | .error (.unreadablePattern template source defect) =>
    let report := Event.unextractable (.unreadablePattern template source defect)
    ⟨.ok none, compilation.events ++ [report], compilation.cache⟩
  | .error fault => ⟨.error fault, compilation.events, compilation.cache⟩
  | .ok compiled =>
    match candidate.toText with
    | .error fault => ⟨.error fault, compilation.events, compilation.cache⟩
    | .ok candidate =>
      match t.extractBy compiled.pattern candidate with
      | .ok none =>
        ⟨.ok none, compilation.events ++ [.mismatch t candidate], compilation.cache⟩
      | result => ⟨result, compilation.events, compilation.cache⟩

def fill (cache : PatternCache) (synthesis : Synthesis) : List Template → Outcome Unit
  | [] => ⟨.ok (), [], cache⟩
  | t :: rest =>
    match cache.compile synthesis t with
    | (.ok _, after) => after.fill synthesis rest
    | (.error fault, after) => ⟨.error fault, [], after⟩

end PatternCache

namespace Request

def run (request : Request) (synthesis : Synthesis) (cache : PatternCache) : Outcome Answer :=
  match request with
  | extract template candidate => (cache.extract synthesis template candidate).map .extracted
  | admits template candidate =>
    (cache.extract synthesis template candidate).map fun values => .verdict values.isSome
  | compile template => (cache.compileReporting synthesis template).map fun c => .source c.source
  | fill stem first stop =>
    let templates := (List.range' first (stop - first)).map fun n => ⟨stem ++ Decimal.digits n⟩
    (cache.fill synthesis templates).map fun _ => .done
  | clear => ⟨.ok .done, [], .empty⟩
  | counters =>
    ⟨.ok (.counters cache.hits cache.misses PatternCache.capacity cache.entries.length), [], cache⟩

end Request

/-- Whether pattern sources are made as they should be, or are all unreadable. -/
inductive Condition
  | sound
  | broken
deriving DecidableEq

def Condition.synthesis : Condition → Synthesis
  | sound => Template.patternSource
  | broken => fun _ => .ok "("

structure Step where
  request : Request
  condition : Condition

def Step.run (step : Step) (cache : PatternCache) : Outcome Answer :=
  step.request.run step.condition.synthesis cache

end UriTemplate
