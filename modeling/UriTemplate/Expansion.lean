import UriTemplate.Operator.Rendering
import UriTemplate.Template.Segment

/-!
Expansion: a template and an environment give a text. Literal runs are copied; an expression whose
variables all contribute nothing, or nothing but empty texts, leaves no trace.
-/

namespace UriTemplate

def Varspec.render (operator : Operator) (environment : Environment) (v : Varspec) : Option Text :=
  operator.render v.name (environment v.name) v.explode (v.maxLength.map Int.ofNat)

namespace Expression

def contributions (e : Expression) (environment : Environment) : List Text :=
  e.varspecs.filterMap (Varspec.render e.operator environment)

/-- The lead and the joined contributions, unless all of these are empty. -/
def assemble (operator : Operator) (contributions : List Text) : Text :=
  if contributions.all List.isEmpty then []
  else operator.lead ++ Text.joined [operator.joiner] contributions

def expand (e : Expression) (environment : Environment) : Text :=
  assemble e.operator (e.contributions environment)

end Expression

def Segment.expand (environment : Environment) : Segment Expression → Text
  | .literal run => run
  | .expression e => e.expand environment

def Template.expand (t : Template) (environment : Environment) : Except Fault Text :=
  t.segments.map fun segments => segments.flatMap (Segment.expand environment)

end UriTemplate
