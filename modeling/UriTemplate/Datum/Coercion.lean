import UriTemplate.Datum.Equality
import UriTemplate.Datum.Written
import UriTemplate.Expansion

/-!
From dynamic values to mappings, bindings and environments. A mapping given for the variables may
also be a sequence of pairs; a value bound to a variable becomes a scalar, a list or a map.
-/

namespace UriTemplate.Datum

def members (d : Datum) : Except Fault (List Datum) :=
  match d.members? with
  | some items => .ok items
  | Option.none => .error (.notIterable d.kind)

def asKey (d : Datum) : Except Fault Datum :=
  match d.unhashable? with
  | some kind => .error (.notHashable kind)
  | Option.none => .ok d

def putAll (entries pairs : List (Datum × Datum)) : Except Fault (List (Datum × Datum)) := do
  let keyed ← pairs.mapM fun pair => pair.1.asKey.map fun key => (key, pair.2)
  return Entries.putAll entries keyed

def mappingOf (kind : MappingKind) (pairs : List (Datum × Datum)) : Except Fault Datum :=
  (putAll [] pairs).map (mapping kind)

def pair (d : Datum) : Except Fault (Datum × Datum) :=
  match d.members? with
  | some [first, second] => .ok (first, second)
  | some (_ :: _ :: _) => .error .surplusItems
  | some items => .error (.missingItems items.length)
  | Option.none => .error (.notUnpackable d.kind)

def displayPair (pair : Datum × Datum) : Except Fault (Text × Text) := do
  let first ← pair.1.display
  let second ← pair.2.display
  return (first, second)

def scalarOf (d : Datum) : Except Fault Binding := d.display.map .scalar

def listOf (d : Datum) : Except Fault Binding := do
  let items ← d.members
  let shown ← items.mapM display
  return .list shown

def mapOf (d : Datum) : Except Fault Binding := do
  let pairs ← match d with
    | mapping _ entries => entries.mapM displayPair
    | other => do
      let items ← other.members
      items.mapM fun item => do
        let unpacked ← item.pair
        displayPair unpacked
  return .map pairs

/-- What a variable is bound to by a value: bindings stay as they are, lists and tuples become
lists, mappings become maps, and anything else but the absent value becomes a scalar. -/
def toBinding? : Datum → Except Fault (Option Binding)
  | none => .ok Option.none
  | binding value => .ok (some value)
  | mapping kind entries => (mapOf (mapping kind entries)).map some
  | list items => (listOf (list items)).map some
  | tuple items => (listOf (tuple items)).map some
  | other => (scalarOf other).map some

/-- The entries of a value that stands for a mapping; a falsy value stands for the empty one. A list
binding has a field of the name by which a mapping is asked for its entries. -/
def bindingEntries (d : Datum) : Except Fault (List (Datum × Datum)) :=
  if d.isFalsy then .ok []
  else match d with
    | mapping _ entries => .ok entries
    | binding (.list _) => .error (.notCallable .tuple)
    | other => .error (.lacks other.kind .items)

def coerceEntries (entries : List (Datum × Datum)) : Except Fault (List (Datum × Binding)) := do
  let coerced ← entries.mapM fun entry => entry.2.toBinding?.map fun bound => (entry.1, bound)
  return coerced.filterMap fun entry => entry.2.map fun bound => (entry.1, bound)

def coerceBindings (d : Datum) : Except Fault (List (Datum × Binding)) := do
  let entries ← d.bindingEntries
  coerceEntries entries

/-- Only a key that is a text binds a name. -/
def environmentOf (bindings : List (Datum × Binding)) : Environment :=
  fun name => bindings.lookup (text name)

def pairAt (position : Nat) (d : Datum) : Except Fault (Datum × Datum) :=
  match d.members? with
  | some [key, value] => .ok (key, value)
  | some items => .error (.entryLength position items.length)
  | Option.none => .error (.entryNotSequence position)

def putSequence (position : Nat) (entries : List (Datum × Datum)) :
    List Datum → Except Fault (List (Datum × Datum))
  | [] => .ok entries
  | item :: rest => do
    let (key, value) ← item.pairAt position
    let key ← key.asKey
    putSequence (position + 1) (Entries.put key value entries) rest

def assignments (d : Datum) : Except Fault (List (Datum × Datum)) :=
  if d.isFalsy then .ok []
  else match d with
    | mapping _ entries => .ok entries
    | other => do
      let items ← other.members
      putSequence 0 [] items

def distinctCount (a b : Datum) : Except Fault Nat := do
  let first ← a.asKey
  let second ← b.asKey
  return if first == second then 1 else 2

def explicitBinding : Datum → Except Fault (Option Binding)
  | none => .ok Option.none
  | binding value => .ok (some value)
  | other => .error (.lacks other.kind .value)

end UriTemplate.Datum
