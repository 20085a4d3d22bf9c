import UriTemplate.Entries

/-!
Entries seen through their keys and by looking a key up. The keys stand in the order in which they
were first put, and the value that was put last is the one found.
-/

namespace UriTemplate.Entries

variable {κ α : Type} [BEq κ]

theorem lookup_map {β : Type} (f : α → β) (entries : List (κ × α)) (name : κ) :
    (entries.map (Prod.map id f)).lookup name = (entries.lookup name).map f := by
  induction entries with
  | nil => rfl
  | cons entry rest ih =>
      rcases entry with ⟨key, value⟩
      rw [List.map_cons, Prod.map_apply, id, List.lookup_cons, List.lookup_cons, ih]
      cases name == key <;> rfl

theorem forall_value_put {property : α → Prop} {key : κ} {value : α} {entries : List (κ × α)}
    (new : property value) (old : ∀ entry ∈ entries, property entry.2) :
    ∀ entry ∈ put key value entries, property entry.2 := by
  induction entries with
  | nil => simpa [put] using new
  | cons entry rest ih =>
      rw [List.forall_mem_cons] at old
      simp only [put]
      split
      · exact List.forall_mem_cons.mpr ⟨new, old.2⟩
      · exact List.forall_mem_cons.mpr ⟨old.1, ih old.2⟩

theorem forall_value_putAll {property : α → Prop} {entries pairs : List (κ × α)}
    (old : ∀ entry ∈ entries, property entry.2) (new : ∀ pair ∈ pairs, property pair.2) :
    ∀ entry ∈ putAll entries pairs, property entry.2 := by
  induction pairs generalizing entries with
  | nil => exact old
  | cons pair pairs ih =>
      rw [List.forall_mem_cons] at new
      exact ih (forall_value_put new.1 old) new.2

variable [LawfulBEq κ]

theorem map_fst_put_of_mem {key : κ} (value : α) {entries : List (κ × α)}
    (member : key ∈ entries.map Prod.fst) :
    (put key value entries).map Prod.fst = entries.map Prod.fst := by
  induction entries with
  | nil => simp at member
  | cons entry rest ih =>
      simp only [put]
      split
      · rfl
      · rename_i different
        have later : key ∈ rest.map Prod.fst := by
          rcases List.mem_cons.mp member with same | later
          · exact absurd (by simpa using same.symm) different
          · exact later
        rw [List.map_cons, ih later, List.map_cons]

theorem put_of_not_mem {key : κ} (value : α) {entries : List (κ × α)}
    (absent : key ∉ entries.map Prod.fst) : put key value entries = entries ++ [(key, value)] := by
  induction entries with
  | nil => rfl
  | cons entry rest ih =>
      simp only [List.map_cons, List.mem_cons, not_or] at absent
      have different : ¬ (entry.1 == key) = true := fun same => absent.1 (eq_of_beq same).symm
      simp only [put]
      rw [if_neg different, ih absent.2]
      rfl

theorem map_fst_putAll (entries pairs : List (κ × α)) :
    (putAll entries pairs).map Prod.fst = entries.map Prod.fst ++
      ((pairs.map Prod.fst).filter fun key => !(entries.map Prod.fst).contains key).eraseDups := by
  induction pairs generalizing entries with
  | nil => simp [putAll]
  | cons pair pairs ih =>
      rcases pair with ⟨first, value⟩
      change (putAll (put first value entries) pairs).map Prod.fst = _
      rw [ih, List.map_cons, List.filter_cons]
      by_cases member : first ∈ entries.map Prod.fst
      · have known : (entries.map Prod.fst).contains first = true :=
          List.contains_iff_mem.mpr member
        rw [map_fst_put_of_mem value member, known]
        rfl
      -- A new key goes to the end, and no later pair adds it again.
      · have unknown : (entries.map Prod.fst).contains first = false := by
          rw [Bool.eq_false_iff, Ne, List.contains_iff_mem]
          exact member
        rw [put_of_not_mem value member, unknown, List.map_append, List.append_assoc]
        simp only [Bool.not_false, if_true, List.eraseDups_cons, List.filter_filter, List.map_cons,
          List.map_nil, List.singleton_append, List.contains_append, List.contains_cons,
          List.contains_nil, Bool.or_false, Bool.not_or, Bool.and_comm]

theorem forall_mem_put {f : κ → α} {key : κ} {entries : List (κ × α)}
    (agree : ∀ entry ∈ entries, entry.2 = f entry.1) :
    ∀ entry ∈ put key (f key) entries, entry.2 = f entry.1 := by
  induction entries with
  | nil => simp [put]
  | cons first rest ih =>
      rw [List.forall_mem_cons] at agree
      simp only [put]
      split
      · rename_i same
        rw [List.forall_mem_cons]
        exact ⟨congrArg f (eq_of_beq same).symm, agree.2⟩
      · rw [List.forall_mem_cons]
        exact ⟨agree.1, ih agree.2⟩

theorem forall_mem_putAll (f : κ → α) (keys : List κ) (entries : List (κ × α))
    (agree : ∀ entry ∈ entries, entry.2 = f entry.1) :
    ∀ entry ∈ putAll entries (keys.map fun key => (key, f key)), entry.2 = f entry.1 := by
  induction keys generalizing entries with
  | nil => exact agree
  | cons key keys ih => exact ih (put key (f key) entries) (forall_mem_put agree)

theorem putAll_graph (f : κ → α) (keys : List κ) :
    putAll [] (keys.map fun key => (key, f key)) = keys.eraseDups.map fun key => (key, f key) := by
  have once : (putAll [] (keys.map fun key => (key, f key))).map Prod.fst = keys.eraseDups := by
    have all : keys.filter (fun _ => true) = keys := List.filter_eq_self.mpr (by simp)
    rw [map_fst_putAll, List.map_map]
    simp [Function.comp_def, all]
  have graph : ∀ entry ∈ putAll [] (keys.map fun key => (key, f key)),
      ((fun key => (key, f key)) ∘ Prod.fst) entry = id entry := by
    intro entry member
    exact Prod.ext rfl (forall_mem_putAll f keys [] (by simp) entry member).symm
  rw [← once, List.map_map, List.map_congr_left graph, List.map_id]

theorem nodup_put {key : κ} (value : α) {entries : List (κ × α)}
    (distinct : (entries.map Prod.fst).Nodup) : ((put key value entries).map Prod.fst).Nodup := by
  by_cases member : key ∈ entries.map Prod.fst
  · rwa [map_fst_put_of_mem value member]
  · rw [put_of_not_mem value member, List.map_append, List.nodup_append]
    refine ⟨distinct, by simp, ?_⟩
    rintro other listed _ added rfl
    have same : other = key := List.mem_singleton.mp added
    rw [same] at listed
    exact member listed

theorem nodup_putAll {entries : List (κ × α)} (distinct : (entries.map Prod.fst).Nodup)
    (pairs : List (κ × α)) : ((putAll entries pairs).map Prod.fst).Nodup := by
  induction pairs generalizing entries with
  | nil => exact distinct
  | cons pair pairs ih => exact ih (nodup_put pair.2 distinct)

theorem lookup_of_not_mem {name : κ} {entries : List (κ × α)}
    (absent : name ∉ entries.map Prod.fst) : entries.lookup name = none := by
  rw [List.lookup_eq_none_iff]
  intro entry listed
  rw [bne_iff_ne]
  rintro rfl
  exact absent (List.mem_map_of_mem listed)

theorem lookup_of_mem {entries : List (κ × α)} (distinct : (entries.map Prod.fst).Nodup) {key : κ}
    {value : α} (member : (key, value) ∈ entries) : entries.lookup key = some value := by
  induction entries with
  | nil => exact absurd member List.not_mem_nil
  | cons entry entries ih =>
      rcases entry with ⟨first, other⟩
      rw [List.map_cons, List.nodup_cons] at distinct
      rw [List.lookup_cons]
      rcases List.mem_cons.mp member with same | later
      · obtain ⟨rfl, rfl⟩ := Prod.mk.inj same
        rw [beq_self_eq_true]
      · have different : (key == first) = false := by
          rw [beq_eq_false_iff_ne]
          rintro rfl
          exact distinct.1 (List.mem_map.mpr ⟨_, later, rfl⟩)
        rw [different]
        exact ih distinct.2 later

theorem map_fst_graph {entries : List (κ × α)} (distinct : (entries.map Prod.fst).Nodup) {f : κ → α}
    (found : ∀ key value, entries.lookup key = some value → f key = value) :
    (entries.map Prod.fst).map (fun key => (key, f key)) = entries := by
  rw [List.map_map]
  refine (List.map_congr_left fun entry member => ?_).trans (List.map_id entries)
  exact Prod.ext rfl (found entry.1 entry.2 (lookup_of_mem distinct member))

theorem lookup_reverse {entries : List (κ × α)} (distinct : (entries.map Prod.fst).Nodup)
    (name : κ) : entries.reverse.lookup name = entries.lookup name := by
  induction entries with
  | nil => rfl
  | cons entry entries ih =>
      rcases entry with ⟨key, value⟩
      rw [List.map_cons, List.nodup_cons] at distinct
      rw [List.reverse_cons, List.lookup_append, ih distinct.2, List.lookup_cons, List.lookup_cons]
      cases same : name == key with
      | false => simp
      | true =>
          rw [eq_of_beq same, lookup_of_not_mem distinct.1]
          rfl

theorem lookup_put (key name : κ) (value : α) (entries : List (κ × α)) :
    (put key value entries).lookup name =
      if name == key then some value else entries.lookup name := by
  induction entries with
  | nil =>
      simp only [put, List.lookup_cons, List.lookup_nil]
      cases name == key <;> rfl
  | cons entry rest ih =>
      rcases entry with ⟨other, previous⟩
      simp only [put]
      by_cases same : other == key
      · rw [if_pos same, eq_of_beq same, List.lookup_cons, List.lookup_cons]
        cases name == key <;> rfl
      · rw [if_neg same, List.lookup_cons, List.lookup_cons, ih]
        by_cases found : name == other
        · have different : (name == key) = false := by
            rw [eq_of_beq found]
            simpa using same
          rw [found, different]
          rfl
        · rw [Bool.not_eq_true] at found
          rw [found]

theorem lookup_putAll (entries pairs : List (κ × α)) (name : κ) :
    (putAll entries pairs).lookup name = (pairs.reverse.lookup name).or (entries.lookup name) := by
  induction pairs generalizing entries with
  | nil => rfl
  | cons pair pairs ih =>
      rcases pair with ⟨key, value⟩
      change (putAll (put key value entries) pairs).lookup name = _
      rw [ih, lookup_put, List.reverse_cons, List.lookup_append, Option.or_assoc]
      simp only [List.lookup_cons, List.lookup_nil]
      cases name == key <;> rfl

end UriTemplate.Entries
