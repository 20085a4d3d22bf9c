import Mathlib.Data.List.Basic
import UriTemplate.Proofs.Binding
import UriTemplate.Proofs.Text.Joined
import UriTemplate.Text.Percent

/-!
The expansion algorithm of RFC 6570, Appendix A: a table with one row for each operator, and a single
pass over the variables that appends to the result as it goes.
-/

namespace UriTemplate.Standard

/-- What the table says of an operator. The allow set consists of the unreserved characters, and of
reserved characters and escapes too where `allowsReserved` is true. -/
structure Row where
  first : Text
  sep : Text
  named : Bool
  ifemp : Text
  allowsReserved : Bool

def row : Operator → Row
  | .simple => ⟨"", ",", false, "", false⟩
  | .reserved => ⟨"", ",", false, "", true⟩
  | .label => ⟨".", ".", false, "", false⟩
  | .pathSegment => ⟨"/", "/", false, "", false⟩
  | .pathParameter => ⟨";", ";", true, "", false⟩
  | .query => ⟨"?", "&", true, "=", false⟩
  | .continuation => ⟨"&", "&", true, "=", false⟩
  | .fragment => ⟨"#", ",", false, "", true⟩

def reserved : Text := ":/?#[]@!$&'()*+,;="

def encodeLiteral : Text → Text
  | percent :: high :: low :: rest =>
    if (Percent.escaped? percent high low).isSome then percent :: high :: low :: encodeLiteral rest
    else Percent.encodePoint reserved percent ++ encodeLiteral (high :: low :: rest)
  | c :: rest => Percent.encodePoint reserved c ++ encodeLiteral rest
  | [] => []

/-- A list or a map without members counts as undefined. -/
def defined? : Option Binding → Option Binding
  | some (.list []) => none
  | some (.map []) => none
  | binding => binding

structure Progress where
  result : Text
  begun : Bool

namespace Row

variable (row : Row) (encodeKey : Text → Text) (environment : Environment)

def encode (t : Text) : Text :=
  if row.allowsReserved then encodeLiteral t else Percent.encode [] t

def assign (name : Text) (isEmpty : Bool) (written : Text) : Text :=
  name ++ if isEmpty then row.ifemp else .ofChar '=' :: written

def label (v : Varspec) (isEmpty : Bool) (written : Text) : Text :=
  if row.named then row.assign (encodeLiteral v.name) isEmpty written else written

def writeScalar (v : Varspec) (value : Text) : Text :=
  row.label v value.isEmpty (row.encode (v.shown value))

def writeList (v : Varspec) (items : List Text) : Text :=
  if v.explode then
    Text.joined row.sep (items.map fun item => row.label v item.isEmpty (row.encode item))
  else row.label v items.isEmpty (Text.joined [.ofChar ','] (items.map row.encode))

/-- Where names are written, a key of an exploded map stands for one and is encoded by `encodeKey`. -/
def writeMap (v : Varspec) (pairs : List (Text × Text)) : Text :=
  if v.explode then
    Text.joined row.sep (pairs.map fun pair =>
      if row.named then row.assign (encodeKey pair.1) pair.2.isEmpty (row.encode pair.2)
      else row.encode pair.1 ++ .ofChar '=' :: row.encode pair.2)
  else row.label v pairs.isEmpty (Text.joined [.ofChar ','] (pairs.map fun pair =>
    row.encode pair.1 ++ .ofChar ',' :: row.encode pair.2))

def write (v : Varspec) : Binding → Text
  | .scalar value => row.writeScalar v value
  | .list items => row.writeList v items
  | .map pairs => row.writeMap encodeKey v pairs

/-- A variable that is not defined is skipped; the first that is defined is written behind `first`,
any other behind `sep`. -/
def step (progress : Progress) (v : Varspec) : Progress :=
  match defined? (environment v.name) with
  | none => progress
  | some binding =>
    ⟨progress.result ++ (if progress.begun then row.sep else row.first) ++
      row.write encodeKey v binding, true⟩

def expand (varspecs : List Varspec) : Text :=
  (varspecs.foldl (row.step encodeKey environment) ⟨[], false⟩).result

def written (varspecs : List Varspec) : List Text :=
  varspecs.filterMap fun v => (defined? (environment v.name)).map (row.write encodeKey v)

variable {row encodeKey environment} {v : Varspec}

theorem step_none (undefined : defined? (environment v.name) = none) (progress : Progress) :
    row.step encodeKey environment progress v = progress := by
  rw [step, undefined]

theorem step_some {binding : Binding} (defined : defined? (environment v.name) = some binding)
    (progress : Progress) :
    row.step encodeKey environment progress v =
      ⟨progress.result ++ (if progress.begun then row.sep else row.first) ++
        row.write encodeKey v binding, true⟩ := by
  rw [step, defined]

theorem written_cons_none (undefined : defined? (environment v.name) = none)
    (varspecs : List Varspec) :
    row.written encodeKey environment (v :: varspecs) =
      row.written encodeKey environment varspecs := by
  apply List.filterMap_cons_none
  rw [undefined, Option.map_none]

theorem written_cons_some {binding : Binding} (defined : defined? (environment v.name) = some binding)
    (varspecs : List Varspec) :
    row.written encodeKey environment (v :: varspecs) =
      row.write encodeKey v binding :: row.written encodeKey environment varspecs := by
  apply List.filterMap_cons_some
  rw [defined, Option.map_some]

theorem foldl_step_begun (varspecs : List Varspec) (result : Text) :
    varspecs.foldl (row.step encodeKey environment) ⟨result, true⟩ =
      ⟨result ++ (row.written encodeKey environment varspecs).flatMap (row.sep ++ ·), true⟩ := by
  induction varspecs generalizing result with
  | nil => simp [written]
  | cons v varspecs ih =>
      rw [List.foldl_cons]
      cases defined : defined? (environment v.name) with
      | none => rw [step_none defined, written_cons_none defined, ih]
      | some binding =>
          rw [step_some defined, written_cons_some defined, if_pos rfl, ih, List.flatMap_cons]
          simp only [List.append_assoc]

theorem expand_eq (varspecs : List Varspec) :
    row.expand encodeKey environment varspecs =
      if row.written encodeKey environment varspecs = [] then []
      else row.first ++ Text.joined row.sep (row.written encodeKey environment varspecs) := by
  unfold expand
  -- Only variables that are not defined leave the pass where it began; behind the first that is
  -- defined the pass has begun, whatever the result is.
  induction varspecs with
  | nil => rfl
  | cons v varspecs ih =>
      rw [List.foldl_cons]
      cases defined : defined? (environment v.name) with
      | none => rw [step_none defined, written_cons_none defined, ih]
      | some binding =>
          rw [step_some defined, written_cons_some defined, if_neg Bool.false_ne_true,
            foldl_step_begun, if_neg (List.cons_ne_nil _ _), Text.joined_cons_eq_flatMap]
          simp only [List.nil_append, List.append_assoc]

theorem expand_congr {encodeKey other : Text → Text} {varspecs : List Varspec}
    (same : row.named = true → ∀ v ∈ varspecs, v.explode = true →
      ∀ pairs, environment v.name = some (.map pairs) →
        ∀ pair ∈ pairs, encodeKey pair.1 = other pair.1) :
    row.expand encodeKey environment varspecs = row.expand other environment varspecs := by
  have agree : row.written encodeKey environment varspecs =
      row.written other environment varspecs := by
    apply List.filterMap_congr
    intro v listed
    match bound : environment v.name with
    | none => rfl
    | some (.scalar value) => rfl
    | some (.list []) => rfl
    | some (.list (item :: items)) => rfl
    | some (.map []) => rfl
    | some (.map (pair :: pairs)) =>
        have written : row.writeMap encodeKey v (pair :: pairs) =
            row.writeMap other v (pair :: pairs) := by
          unfold writeMap
          split
          · rename_i explode
            congr 1
            apply List.map_congr_left
            intro member inside
            split
            · rename_i named
              rw [same named v listed explode _ bound member inside]
            · rfl
          · rfl
        exact congrArg some written
  rw [expand_eq, expand_eq, agree]

end Row

def expand (op : Operator) (environment : Environment) (varspecs : List Varspec) : Text :=
  (row op).expand encodeLiteral environment varspecs

end UriTemplate.Standard
