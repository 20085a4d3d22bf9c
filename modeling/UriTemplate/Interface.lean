import UriTemplate.Template.TextRoot
import UriTemplate.Template.Validation

/-!
Expansion and extraction for dynamic values: of a template that has been made before, of anything
that a template can be made from, and of a text taken as it is.
-/

namespace UriTemplate

namespace Template

/-- Expansion with the variables of a mapping or a sequence of pairs. The overrides take precedence
over them. -/
def expandWith (t : Template) (given : Datum) (overrides : List (Text × Datum)) :
    Except Fault Text := do
  let entries ← given.assignments
  let merged := Entries.putAll entries (overrides.map fun entry => (.text entry.1, entry.2))
  let bindings ← Datum.coerceEntries merged
  t.expand (Datum.environmentOf bindings)

/-- Extraction from a candidate that has to be a text. The pattern is made first. -/
def extractFrom (t : Template) (candidate : Datum) : Except Fault (Option Extracted) :=
  match Compiled.make patternSource t with
  | .ok compiled => do
    let candidate ← candidate.toText
    t.extractBy compiled.pattern candidate
  | .error (.unreadablePattern ..) => .ok none
  | .error fault => .error fault

theorem extractFrom_text (t : Template) (candidate : Text) :
    t.extractFrom (.text candidate) = t.extract candidate := by
  unfold extractFrom extract
  cases Compiled.make patternSource t with
  | ok compiled => rfl
  | error fault => cases fault <;> rfl

end Template

section Model

variable [RootModel]

def expand (template given : Datum) (overrides : List (Text × Datum)) : Except Fault Text := do
  let t ← Template.ofDatum template
  t.expandWith given overrides

def extract (template candidate : Datum) : Except Fault (Option Extracted) := do
  let t ← Template.ofDatum template
  t.extractFrom candidate

def admits (template candidate : Datum) : Except Fault Bool :=
  (extract template candidate).map Option.isSome

def «variables» (template : Datum) : Except Fault (List Text) := do
  let t ← Template.ofDatum template
  t.variables

end Model

def expandText (template bindings : Datum) : Except Fault Text := do
  -- The bindings are read first, so a fault of theirs hides one of the template.
  let bound ← bindings.coerceBindings
  let t ← template.toTemplateText
  t.expand (Datum.environmentOf bound)

def extractText (template candidate : Datum) : Except Fault (Option Extracted) := do
  let t ← template.toTemplateText
  t.extractFrom candidate

def expandExplicit (e : Expression) (bindings : Datum) : Except Fault Text :=
  match bindings with
  | .mapping _ entries => do
    let bound ← e.names.mapM fun name => do
      let value ← ((entries.lookup (.text name)).getD .none).explicitBinding
      return (name, value)
    return e.expand fun name => (bound.lookup name).join
  | other => .error (.lacks other.kind .get)

end UriTemplate
