import UriTemplate.Datum.Coercion
import UriTemplate.Proofs.Entries
import UriTemplate.Proofs.Fault

/-!
The entries of a mapping as an environment sees them. Only the keys that are texts can be found in
it, and under each of them it has what the value is coerced to; an absent value leaves no trace.
-/

namespace UriTemplate.Datum

variable {α : Type}

theorem text_beq_iff {name : Text} {key : Datum} : (text name == key) = true ↔ key = text name := by
  change equal (text name) key = true ↔ key = text name
  cases key <;> simp [equal, equalNumbers, integer?, eq_comm]

theorem beq_text_iff {name : Text} {key : Datum} : (key == text name) = true ↔ key = text name := by
  change equal key (text name) = true ↔ key = text name
  cases key <;> simp [equal, equalNumbers, integer?]

def name? : Datum → Option Text
  | text name => some name
  | _ => Option.none

theorem name?_eq_some_iff {key : Datum} {name : Text} : key.name? = some name ↔ key = text name := by
  cases key <;> simp [name?]

variable {key : Datum}

theorem text_beq_of_unnamed (unnamed : key.name? = Option.none) (name : Text) :
    (text name == key) = false := by
  rw [Bool.eq_false_iff, Ne, text_beq_iff, ← name?_eq_some_iff, unnamed]
  exact (Option.some_ne_none name).symm

theorem beq_text_of_unnamed (unnamed : key.name? = Option.none) (name : Text) :
    (key == text name) = false := by
  rw [Bool.eq_false_iff, Ne, beq_text_iff, ← name?_eq_some_iff, unnamed]
  exact (Option.some_ne_none name).symm

def named (entries : List (Datum × α)) : List (Text × α) :=
  entries.filterMap fun entry => entry.1.name?.map fun name => (name, entry.2)

@[simp] theorem named_nil : named ([] : List (Datum × α)) = [] := rfl

@[simp] theorem named_text_cons (name : Text) (value : α) (entries : List (Datum × α)) :
    named ((text name, value) :: entries) = (name, value) :: named entries := rfl

theorem named_cons_of_unnamed (unnamed : key.name? = Option.none) (value : α)
    (entries : List (Datum × α)) : named ((key, value) :: entries) = named entries := by
  simp [named, unnamed]

theorem named_texts (pairs : List (Text × α)) :
    named (pairs.map fun pair => (text pair.1, pair.2)) = pairs := by
  induction pairs with
  | nil => rfl
  | cons pair pairs ih => rw [List.map_cons, named_text_cons, ih]

theorem lookup_text (entries : List (Datum × α)) (name : Text) :
    entries.lookup (text name) = (named entries).lookup name := by
  induction entries with
  | nil => rfl
  | cons entry entries ih =>
      rcases entry with ⟨key, value⟩
      rw [List.lookup_cons, ih]
      cases found : key.name? with
      | none =>
          rw [text_beq_of_unnamed found, named_cons_of_unnamed found]
      | some key =>
          rw [name?_eq_some_iff] at found
          subst found
          have same : (text name == text key) = (name == key) := by
            rw [Bool.eq_iff_iff, text_beq_iff, beq_iff_eq, text.injEq, eq_comm]
          rw [same, named_text_cons, List.lookup_cons]

theorem named_put_text (name : Text) (value : α) (entries : List (Datum × α)) :
    named (Entries.put (text name) value entries) = Entries.put name value (named entries) := by
  induction entries with
  | nil => rfl
  | cons entry entries ih =>
      rcases entry with ⟨key, previous⟩
      rw [Entries.put]
      cases found : key.name? with
      | none =>
          rw [beq_text_of_unnamed found, if_neg Bool.false_ne_true, named_cons_of_unnamed found,
            named_cons_of_unnamed found, ih]
      | some key =>
          rw [name?_eq_some_iff] at found
          subst found
          rw [named_text_cons, Entries.put]
          simp only [beq_text_iff, text.injEq, beq_iff_eq]
          split
          · rfl
          · rw [named_text_cons, ih]

theorem named_put_of_unnamed (unnamed : key.name? = Option.none) (value : α)
    (entries : List (Datum × α)) : named (Entries.put key value entries) = named entries := by
  induction entries with
  | nil => exact named_cons_of_unnamed unnamed value []
  | cons entry entries ih =>
      rcases entry with ⟨first, previous⟩
      rw [Entries.put]
      cases found : first.name? with
      | none =>
          split
          · rw [named_cons_of_unnamed found, named_cons_of_unnamed found]
          · rw [named_cons_of_unnamed found, named_cons_of_unnamed found, ih]
      | some name =>
          rw [name?_eq_some_iff] at found
          subst found
          rw [text_beq_of_unnamed unnamed, if_neg Bool.false_ne_true, named_text_cons,
            named_text_cons, ih]

theorem named_putAll (entries pairs : List (Datum × α)) :
    named (Entries.putAll entries pairs) = Entries.putAll (named entries) (named pairs) := by
  induction pairs generalizing entries with
  | nil => rfl
  | cons pair pairs ih =>
      rcases pair with ⟨key, value⟩
      change named (Entries.putAll (Entries.put key value entries) pairs) = _
      rw [ih]
      cases found : key.name? with
      | none => rw [named_put_of_unnamed found, named_cons_of_unnamed found]
      | some name =>
          rw [name?_eq_some_iff] at found
          subst found
          rw [named_put_text, named_text_cons]
          rfl

theorem environmentOf_eq (bound : List (Datum × Binding)) (name : Text) :
    environmentOf bound name = (named bound).lookup name := lookup_text bound name

theorem environmentOf_cons {key name : Text} {value : Binding} {bound : List (Datum × Binding)} :
    environmentOf ((text key, value) :: bound) name =
      if name = key then some value else environmentOf bound name := by
  rw [environmentOf_eq, environmentOf_eq, named_text_cons, List.lookup_cons]
  cases same : name == key <;> simp_all

section

variable (kind : MappingKind) (entries : List (Datum × Datum))

theorem assignments_mapping : (mapping kind entries).assignments = .ok entries := by
  cases entries <;> rfl

theorem coerceBindings_mapping : (mapping kind entries).coerceBindings = coerceEntries entries := by
  cases entries <;> rfl

end

def boundTo? : Option Datum → Except Fault (Option Binding)
  | some value => value.toBinding?
  | Option.none => .ok Option.none

theorem coerceEntries_cons_eq_ok_iff {entry : Datum × Datum} {entries : List (Datum × Datum)}
    {bound : List (Datum × Binding)} :
    coerceEntries (entry :: entries) = .ok bound ↔
      ∃ binding rest, entry.2.toBinding? = .ok binding ∧ coerceEntries entries = .ok rest ∧
        bound = (binding.map fun value => (entry.1, value)).toList ++ rest := by
  unfold coerceEntries
  rw [List.mapM_cons]
  cases entry.2.toBinding? with
  | error fault => simp [Except.map, bind, Except.bind]
  | ok binding =>
      cases entries.mapM fun entry => entry.2.toBinding?.map fun bound => (entry.1, bound) with
      | error fault => simp [Except.map, bind, Except.bind]
      | ok coerced =>
          cases binding <;> simp [Except.map, bind, Except.bind, pure, Except.pure, eq_comm]

theorem exists_coerceEntries {entries : List (Datum × Datum)}
    (coercible : ∀ entry ∈ entries, ∃ binding, entry.2.toBinding? = .ok binding) :
    ∃ bound, coerceEntries entries = .ok bound := by
  have coerced : ∃ coerced, entries.mapM (fun entry =>
      entry.2.toBinding?.map fun bound => (entry.1, bound)) = .ok coerced := by
    apply exists_mapM_eq_ok
    intro entry member
    obtain ⟨binding, found⟩ := coercible entry member
    exact ⟨(entry.1, binding), by rw [found]; rfl⟩
  obtain ⟨coerced, each⟩ := coerced
  unfold coerceEntries
  rw [each]
  exact ⟨_, rfl⟩

theorem boundTo?_lookup {entries : List (Datum × Datum)} {bound : List (Datum × Binding)}
    (distinct : ((named entries).map Prod.fst).Nodup) (coerced : coerceEntries entries = .ok bound)
    (name : Text) : boundTo? ((named entries).lookup name) = .ok (environmentOf bound name) := by
  rw [environmentOf_eq]
  induction entries generalizing bound with
  | nil =>
      cases coerced
      rfl
  | cons entry entries ih =>
      rcases entry with ⟨key, value⟩
      obtain ⟨binding, rest, first, others, rfl⟩ := coerceEntries_cons_eq_ok_iff.mp coerced
      cases found : key.name? with
      | none =>
          rw [named_cons_of_unnamed found] at distinct ⊢
          rw [ih distinct others]
          cases binding with
          | none => rfl
          | some binding =>
              rw [Option.map_some, Option.toList_some, List.singleton_append,
                named_cons_of_unnamed found]
      | some key =>
          rw [name?_eq_some_iff] at found
          subst found
          rw [named_text_cons, List.map_cons, List.nodup_cons] at distinct
          have later := ih distinct.2 others
          rw [named_text_cons, List.lookup_cons]
          cases same : name == key with
          | false =>
              rw [later]
              cases binding with
              | none => rfl
              | some binding =>
                  rw [Option.map_some, Option.toList_some, List.singleton_append, named_text_cons,
                    List.lookup_cons, same]
          | true =>
              rw [eq_of_beq same, Entries.lookup_of_not_mem distinct.1] at later
              rw [eq_of_beq same]
              refine first.trans ?_
              cases binding with
              | none => exact later
              | some binding =>
                  rw [Option.map_some, Option.toList_some, List.singleton_append, named_text_cons,
                    List.lookup_cons_self]

theorem coerceBindings_map {key value : α → Datum} {bound : α → Binding}
    (each : ∀ a, (value a).toBinding? = .ok (some (bound a))) (kind : MappingKind) (as : List α) :
    (mapping kind (as.map fun a => (key a, value a))).coerceBindings =
      .ok (as.map fun a => (key a, bound a)) := by
  rw [coerceBindings_mapping]
  induction as with
  | nil => rfl
  | cons a as ih =>
      rw [List.map_cons, coerceEntries_cons_eq_ok_iff]
      exact ⟨some (bound a), _, each a, ih, rfl⟩

theorem environmentOf_texts (pairs : List (Text × Text)) (name : Text) :
    environmentOf (pairs.map fun pair => (text pair.1, .scalar pair.2)) name =
      (pairs.lookup name).map .scalar := by
  rw [environmentOf_eq, ← Entries.lookup_map, ← named_texts (pairs.map (Prod.map id Binding.scalar)),
    List.map_map]
  rfl

end UriTemplate.Datum
