import UriTemplate.Extraction.Basic

/-!
Compiled patterns are remembered for the templates used last. A failed compilation counts as a miss
and leaves no trace otherwise.
-/

namespace UriTemplate

/-- The entries run from the most recently used template to the least recently used one. -/
structure PatternCache where
  entries : List (Template × Compiled)
  hits : Nat
  misses : Nat

namespace PatternCache

def capacity : Nat := 512

def empty : PatternCache := ⟨[], 0, 0⟩

def find? (cache : PatternCache) (t : Template) : Option Compiled := cache.entries.lookup t

def templates (cache : PatternCache) : List Template := cache.entries.map Prod.fst

def remember (t : Template) (compiled : Compiled) (entries : List (Template × Compiled)) :
    List (Template × Compiled) :=
  ((t, compiled) :: entries.filter fun entry => entry.1 ≠ t).take capacity

def compile (cache : PatternCache) (synthesis : Synthesis) (t : Template) :
    Except Fault Compiled × PatternCache :=
  match cache.find? t with
  | some compiled =>
    (.ok compiled, { cache with
      entries := remember t compiled cache.entries
      hits := cache.hits + 1 })
  | none =>
    match Compiled.make synthesis t with
    | .ok compiled =>
      (.ok compiled, { cache with
        entries := remember t compiled cache.entries
        misses := cache.misses + 1 })
    | .error fault => (.error fault, { cache with misses := cache.misses + 1 })

end PatternCache

end UriTemplate
