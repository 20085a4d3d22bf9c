import UriTemplate.Datum.Reading
import UriTemplate.Extraction.Basic
import UriTemplate.Template.RootModel

/-!
Templates as values: what they are made from, what they are written as, and what they are equal to.
-/

namespace UriTemplate.Template

section Model

variable [RootModel]

def new (d : Datum) : Except Fault Template := (RootModel.construct d).map Template.mk

def ofDatum : Datum → Except Fault Template
  | .template t => .ok t
  | other => new other

def validate (d : Datum) : Except Fault Template := (RootModel.validate d).map Template.mk

def ofJson (document : Datum) : Except Fault Template :=
  (RootModel.validateJson document).map Template.mk

def dump (t : Template) : Datum := RootModel.dump t.text

def toJson (t : Template) : Except Fault Text := RootModel.dumpJson t.text

end Model

def quoted (t : Template) : Except Fault Text := (Datum.template t).quoted

def equalsDatum (t : Template) (d : Datum) : Bool := Datum.template t == d

def hashBy (hashOfText : Text → Int) (t : Template) : Int := hashOfText t.text

def replaceText (_ : Template) (_ : Datum) : Except Fault Template := .error .templateFrozen

def distinctCount (templates : List Template) : Nat := templates.eraseDups.length

end UriTemplate.Template
