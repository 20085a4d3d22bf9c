import UriTemplate.Fault
import UriTemplate.Template.Basic

/-!
What extraction reports while it runs. Reports quote the texts they mention, so no text can pass for
a report or break one into lines.
-/

namespace UriTemplate

inductive Level
  | debug
  | info
  | warning
  | error
  | critical
deriving DecidableEq

namespace Level

def rank : Level → Nat
  | debug => 0
  | info => 1
  | warning => 2
  | error => 3
  | critical => 4

def name : Level → Text
  | debug => "DEBUG"
  | info => "INFO"
  | warning => "WARNING"
  | error => "ERROR"
  | critical => "CRITICAL"

def ofName? (t : Text) : Option Level :=
  [debug, info, warning, error, critical].find? fun level => level.name = t

end Level

inductive Event
  | compiled (template : Template) (source : Text)
  | unextractable (fault : Fault)
  | mismatch (template : Template) (candidate : Text)
deriving DecidableEq

namespace Event

def level : Event → Level
  | compiled .. => .debug
  | unextractable _ => .warning
  | mismatch .. => .debug

def message : Event → Text
  | compiled template source =>
    "Compiled extraction pattern for " ++ Quoted.text template.text ++ ": " ++ Quoted.text source
  | unextractable fault => "Cannot extract variables: " ++ fault.message
  | mismatch template candidate =>
    Quoted.text candidate ++ " does not match template " ++ Quoted.text template.text

def atLeast (level : Level) (events : List Event) : List Event :=
  events.filter fun event => level.rank ≤ event.level.rank

end Event

end UriTemplate
