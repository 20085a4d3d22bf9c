import UriTemplate.Text.CodePoint

/-!
A template is its text. Every text is a template: braces that enclose nothing or stay open are part
of the literal text around them.
-/

namespace UriTemplate

structure Template where
  text : Text
deriving DecidableEq

end UriTemplate
