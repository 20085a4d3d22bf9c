import UriTemplate.Datum.Basic
import UriTemplate.Entries

/-!
Equality of dynamic values. Numbers are equal when their values are, whatever their kinds; a list
never equals a tuple; mappings are equal when they have equal entries, in the same order if both are
ordered. Views are compared by what they show.
-/

namespace UriTemplate.Datum

def integer? : Datum → Option Int
  | bool value => some (if value then 1 else 0)
  | int value => some value
  | _ => Option.none

def equalNumbers (a b : Datum) : Bool :=
  match a, b with
  | float x, float y => x.equal y
  | float x, other | other, float x =>
    match other.integer? with
    | some n => x.equalInt n
    | Option.none => false
  | _, _ =>
    match a.integer?, b.integer? with
    | some n, some m => n = m
    | _, _ => false

mutual

def equal : Datum → Datum → Bool
  | none, none => true
  | text t, text u => t = u
  | octets t, octets u => t = u
  | list items, list others => equalAll items others
  | tuple items, tuple others => equalAll items others
  | mapping kind entries, mapping other others =>
    entries.length = others.length && equalEntries entries others &&
      (kind ≠ .ordered || other ≠ .ordered || equalKeys entries others)
  | binding b, binding c => b = c
  | template t, template u => t = u
  | a, b => equalNumbers a b

def equalAll : List Datum → List Datum → Bool
  | [], [] => true
  | a :: rest, b :: others => equal a b && equalAll rest others
  | _, _ => false

def equalEntries : List (Datum × Datum) → List (Datum × Datum) → Bool
  | [], _ => true
  | (key, value) :: rest, others =>
    (others.any fun other => equal key other.1 && equal value other.2) && equalEntries rest others

def equalKeys : List (Datum × Datum) → List (Datum × Datum) → Bool
  | [], [] => true
  | (key, _) :: rest, other :: others => equal key other.1 && equalKeys rest others
  | _, _ => false

end

instance : BEq Datum := ⟨equal⟩

end UriTemplate.Datum
