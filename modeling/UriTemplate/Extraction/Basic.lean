import UriTemplate.Entries
import UriTemplate.Pattern.Captures
import UriTemplate.Text.Percent

/-!
Extraction: the values of a template's variables are recovered from a text that has the template's
shape. The template's pattern is made as a source text, which is then read; if that fails, nothing
is extracted.
-/

namespace UriTemplate

abbrev Synthesis := Template → Except Fault Text

def Template.patternSource : Synthesis :=
  fun t => t.segments.map fun segments => (Pattern.ofSegments segments).source

structure Compiled where
  source : Text
  pattern : Pattern
deriving DecidableEq

def Compiled.make (synthesis : Synthesis) (t : Template) : Except Fault Compiled := do
  let source ← synthesis t
  match Pattern.read 0 source with
  | .ok pattern => return ⟨source, pattern⟩
  | .error defect => throw (.unreadablePattern t.text source defect)

abbrev Extracted := List (Text × Text)

namespace Template

/-- Each capture is the value of the variable at the same place; the last one counts when a name
occurs more than once. -/
def values (t : Template) (captures : List Text) : Except Fault Extracted :=
  t.variables.map fun names => Entries.putAll [] (names.zip (captures.map Percent.decode))

def extractBy (pattern : Pattern) (t : Template) (candidate : Text) :
    Except Fault (Option Extracted) :=
  match pattern.captures? candidate with
  | none => .ok none
  | some captures => (t.values captures).map some

def extract (t : Template) (candidate : Text) : Except Fault (Option Extracted) :=
  match Compiled.make patternSource t with
  | .ok compiled => t.extractBy compiled.pattern candidate
  | .error (.unreadablePattern ..) => .ok none
  | .error fault => .error fault

def admits (t : Template) (candidate : Text) : Except Fault Bool :=
  (t.extract candidate).map Option.isSome

end Template

end UriTemplate
