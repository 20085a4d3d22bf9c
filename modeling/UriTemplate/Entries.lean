/-!
Entries in the order in which their keys were first put. Putting an equal key again keeps the key
and its place and takes the new value.
-/

namespace UriTemplate.Entries

def put {κ α : Type} [BEq κ] (key : κ) (value : α) : List (κ × α) → List (κ × α)
  | [] => [(key, value)]
  | entry :: rest =>
    if entry.1 == key then (entry.1, value) :: rest else entry :: put key value rest

def putAll {κ α : Type} [BEq κ] (entries pairs : List (κ × α)) : List (κ × α) :=
  pairs.foldl (fun entries pair => put pair.1 pair.2 entries) entries

end UriTemplate.Entries
