import Mathlib.Data.List.Lex
import UriTemplate.Pattern.Captures

/-!
What a pattern matches, apart from how the captures are found. Of all ways in which the groups can
share out a text, the captures are the one whose lengths come last in lexicographic order.
-/

namespace UriTemplate.Pattern

/-- The groups, in order, and the literal characters between them make up the text. -/
inductive Matches : Pattern → List Text → Text → Prop
  | nil : Matches [] [] []
  | char {c p groups t} : Matches p groups t → Matches (.char c :: p) groups (c :: t)
  | free {p group groups t} : (∀ c ∈ group, isFree c = true) → Matches p groups t →
      Matches (.free :: p) (group :: groups) (group ++ t)
  | plain {p group groups t} : group ≠ [] → (∀ c ∈ group, isPlain c = true) →
      Matches p groups t → Matches (.plain :: p) (group :: groups) (group ++ t)

theorem captures?_nil (t : Text) : captures? [] t = if t = [] then some [] else none := by
  cases t <;> rfl

theorem captures?_char_nil (c : CodePoint) (p : Pattern) : captures? (.char c :: p) [] = none := rfl

theorem captures?_char_cons (c d : CodePoint) (p : Pattern) (t : Text) :
    captures? (.char c :: p) (d :: t) = if d = c then captures? p t else none := by
  simp only [captures?, column, Column.char, tail_column]
  rfl

theorem captures?_free_nil (p : Pattern) :
    captures? (.free :: p) [] = (captures? p []).map ([] :: ·) := rfl

theorem captures?_free_cons (c : CodePoint) (p : Pattern) (t : Text) :
    captures? (.free :: p) (c :: t) =
      (if isFree c then Column.extend c (captures? (.free :: p) t) else none).or
        ((captures? p (c :: t)).map ([] :: ·)) := by
  simp only [captures?, column, Column.free, tail_column]
  rfl

theorem captures?_plain_nil (p : Pattern) : captures? (.plain :: p) [] = none := rfl

theorem captures?_plain_cons (c : CodePoint) (p : Pattern) (t : Text) :
    captures? (.plain :: p) (c :: t) =
      if isPlain c then (Column.extend c (captures? (.plain :: p) t)).or
        ((captures? p t).map ([c] :: ·)) else none := by
  simp only [captures?, column, Column.plain, tail_column]
  rfl

theorem extend_eq_some_iff {c : CodePoint} {found : Option (List Text)} {groups : List Text} :
    Column.extend c found = some groups ↔
      ∃ group rest, found = some (group :: rest) ∧ groups = (c :: group) :: rest := by
  cases found with
  | none => simp [Column.extend]
  | some list =>
      cases list with
      | nil => simp [Column.extend]
      | cons group rest =>
          simp only [Column.extend, Option.some.injEq, List.cons.injEq]
          constructor
          · rintro rfl
            exact ⟨group, rest, ⟨rfl, rfl⟩, rfl⟩
          · rintro ⟨_, _, ⟨rfl, rfl⟩, rfl⟩
            rfl

theorem Matches.free_cons {c : CodePoint} {p : Pattern} {group : Text} {groups : List Text} {t : Text}
    (allowed : isFree c = true) (rest : Matches (.free :: p) (group :: groups) t) :
    Matches (.free :: p) ((c :: group) :: groups) (c :: t) := by
  cases rest with
  | free all rest => exact Matches.free (List.forall_mem_cons.mpr ⟨allowed, all⟩) rest

theorem Matches.plain_cons {c : CodePoint} {p : Pattern} {group : Text} {groups : List Text}
    {t : Text} (allowed : isPlain c = true) (rest : Matches (.plain :: p) (group :: groups) t) :
    Matches (.plain :: p) ((c :: group) :: groups) (c :: t) := by
  cases rest with
  | plain _ all rest =>
      exact Matches.plain (by simp) (List.forall_mem_cons.mpr ⟨allowed, all⟩) rest

theorem matches_free_of_captures? {p : Pattern} {t : Text} {groups : List Text}
    (later : ∀ t groups, captures? p t = some groups → Matches p groups t)
    (found : captures? (.free :: p) t = some groups) : Matches (.free :: p) groups t := by
  induction t generalizing groups with
  | nil =>
      rw [captures?_free_nil] at found
      obtain ⟨rest, stopped, rfl⟩ := Option.map_eq_some_iff.mp found
      exact Matches.free (by simp) (later _ _ stopped)
  | cons c t ih =>
      rw [captures?_free_cons, Option.or_eq_some_iff] at found
      rcases found with longer | ⟨_, stopped⟩
      · split at longer
        · rename_i allowed
          obtain ⟨group, rest, inner, rfl⟩ := extend_eq_some_iff.mp longer
          exact Matches.free_cons allowed (ih inner)
        · simp at longer
      · obtain ⟨rest, found, rfl⟩ := Option.map_eq_some_iff.mp stopped
        exact Matches.free (by simp) (later _ _ found)

theorem matches_plain_of_captures? {p : Pattern} {t : Text} {groups : List Text}
    (later : ∀ t groups, captures? p t = some groups → Matches p groups t)
    (found : captures? (.plain :: p) t = some groups) : Matches (.plain :: p) groups t := by
  induction t generalizing groups with
  | nil => simp [captures?_plain_nil] at found
  | cons c t ih =>
      rw [captures?_plain_cons] at found
      split at found
      · rename_i allowed
        rw [Option.or_eq_some_iff] at found
        rcases found with longer | ⟨_, stopped⟩
        · obtain ⟨group, rest, inner, rfl⟩ := extend_eq_some_iff.mp longer
          exact Matches.plain_cons allowed (ih inner)
        · obtain ⟨rest, found, rfl⟩ := Option.map_eq_some_iff.mp stopped
          exact Matches.plain (by simp) (by simpa using allowed) (later _ _ found)
      · simp at found

theorem matches_of_captures? {p : Pattern} {t : Text} {groups : List Text}
    (found : captures? p t = some groups) : Matches p groups t := by
  induction p generalizing t groups with
  | nil =>
      rw [captures?_nil] at found
      split at found
      · rename_i empty
        rw [empty, ← Option.some.inj found]
        exact Matches.nil
      · simp at found
  | cons token p ih =>
      cases token with
      | char c =>
          cases t with
          | nil => simp [captures?_char_nil] at found
          | cons d t =>
              rw [captures?_char_cons] at found
              split at found
              · rename_i same
                rw [same]
                exact Matches.char (ih found)
              · simp at found
      | free => exact matches_free_of_captures? (fun _ _ => ih) found
      | plain => exact matches_plain_of_captures? (fun _ _ => ih) found

def lengths (groups : List Text) : List Nat := groups.map List.length

theorem lengths_cons_le {first second : Text} {groups others : List Text} :
    lengths (first :: groups) ≤ lengths (second :: others) ↔
      first.length < second.length ∨
        first.length = second.length ∧ lengths groups ≤ lengths others := by
  rw [le_iff_lt_or_eq, le_iff_lt_or_eq, lengths, lengths, List.map_cons, List.map_cons,
    List.cons_lt_cons_iff, List.cons.injEq]
  simp only [lengths]
  tauto

theorem captures?_free_append {p : Pattern} {group t : Text} {rest : List Text}
    (allowed : ∀ c ∈ group, isFree c = true) (later : captures? p t = some rest) :
    ∃ first others, captures? (.free :: p) (group ++ t) = some (first :: others) ∧
      lengths (group :: rest) ≤ lengths (first :: others) := by
  induction group with
  | nil =>
      cases t with
      | nil =>
          refine ⟨[], rest, ?_, le_refl _⟩
          rw [List.append_nil, captures?_free_nil, later]
          rfl
      | cons c t =>
          rw [List.nil_append, captures?_free_cons, later]
          -- If the group can go on at all, it is longer than the empty one.
          cases longer : (if isFree c then Column.extend c (captures? (.free :: p) t) else none) with
          | none => exact ⟨[], rest, rfl, le_refl _⟩
          | some groups =>
              split at longer
              · obtain ⟨first, others, _, rfl⟩ := extend_eq_some_iff.mp longer
                exact ⟨c :: first, others, rfl, lengths_cons_le.mpr (Or.inl (by simp))⟩
              · simp at longer
  | cons c group ih =>
      obtain ⟨first, others, found, bound⟩ := ih fun d member => allowed d (by simp [member])
      refine ⟨c :: first, others, ?_, ?_⟩
      · rw [List.cons_append, captures?_free_cons, found, if_pos (allowed c (by simp))]
        rfl
      · rw [lengths_cons_le] at bound ⊢
        simpa using bound

theorem captures?_plain_append {p : Pattern} {group t : Text} {rest : List Text}
    (nonempty : group ≠ []) (allowed : ∀ c ∈ group, isPlain c = true)
    (later : captures? p t = some rest) :
    ∃ first others, captures? (.plain :: p) (group ++ t) = some (first :: others) ∧
      lengths (group :: rest) ≤ lengths (first :: others) := by
  induction group with
  | nil => exact absurd rfl nonempty
  | cons c group ih =>
      rw [List.cons_append, captures?_plain_cons, if_pos (allowed c (by simp))]
      by_cases single : group = []
      · subst group
        rw [List.nil_append, later]
        cases longer : Column.extend c (captures? (.plain :: p) t) with
        | none => exact ⟨[c], rest, rfl, le_refl _⟩
        | some groups =>
            obtain ⟨first, others, found, rfl⟩ := extend_eq_some_iff.mp longer
            refine ⟨c :: first, others, rfl, lengths_cons_le.mpr (Or.inl ?_)⟩
            cases matches_of_captures? found with
            | plain nonempty _ _ => simpa using List.length_pos_iff.mpr nonempty
      · obtain ⟨first, others, found, bound⟩ :=
          ih single fun d member => allowed d (by simp [member])
        refine ⟨c :: first, others, ?_, ?_⟩
        · rw [found]
          rfl
        · rw [lengths_cons_le] at bound ⊢
          simpa using bound

theorem exists_captures? {p : Pattern} {t : Text} {groups : List Text}
    (matched : Matches p groups t) :
    ∃ best, captures? p t = some best ∧ lengths groups ≤ lengths best := by
  induction matched with
  | nil => exact ⟨[], rfl, le_refl _⟩
  | @char c p groups t _ ih =>
      obtain ⟨best, found, bound⟩ := ih
      refine ⟨best, ?_, bound⟩
      rw [captures?_char_cons, if_pos rfl, found]
  | @free p group groups t allowed _ ih =>
      obtain ⟨best, found, bound⟩ := ih
      obtain ⟨first, others, whole, more⟩ := captures?_free_append allowed found
      have least : lengths (group :: groups) ≤ lengths (group :: best) :=
        lengths_cons_le.mpr (Or.inr ⟨rfl, bound⟩)
      exact ⟨first :: others, whole, le_trans least more⟩
  | @plain p group groups t nonempty allowed _ ih =>
      obtain ⟨best, found, bound⟩ := ih
      obtain ⟨first, others, whole, more⟩ := captures?_plain_append nonempty allowed found
      have least : lengths (group :: groups) ≤ lengths (group :: best) :=
        lengths_cons_le.mpr (Or.inr ⟨rfl, bound⟩)
      exact ⟨first :: others, whole, le_trans least more⟩

theorem captures?_eq_none_iff {p : Pattern} {t : Text} :
    captures? p t = none ↔ ∀ groups, ¬ Matches p groups t := by
  constructor
  · intro nothing groups matched
    obtain ⟨best, found, _⟩ := exists_captures? matched
    rw [nothing] at found
    simp at found
  · intro nothing
    cases found : captures? p t with
    | none => rfl
    | some groups => exact absurd (matches_of_captures? found) (nothing groups)

theorem Matches.eq_of_lengths {p : Pattern} {t : Text} {groups others : List Text}
    (matched : Matches p groups t) (other : Matches p others t)
    (same : lengths groups = lengths others) : groups = others := by
  induction matched generalizing others with
  | nil =>
      cases other
      rfl
  | char _ ih =>
      cases other with
      | char other => exact ih other same
  | @free p group groups t _ _ ih =>
      generalize whole : group ++ t = text at other
      cases other with
      | @free _ second others rest _ other =>
          simp only [lengths, List.map_cons, List.cons.injEq] at same
          obtain ⟨rfl, rfl⟩ := List.append_inj whole same.1
          rw [ih other same.2]
  | @plain p group groups t _ _ _ ih =>
      generalize whole : group ++ t = text at other
      cases other with
      | @plain _ second others rest _ _ other =>
          simp only [lengths, List.map_cons, List.cons.injEq] at same
          obtain ⟨rfl, rfl⟩ := List.append_inj whole same.1
          rw [ih other same.2]

/-- The captures are the match with the greatest lengths, and there is no other such match. -/
theorem captures?_eq_some_iff {p : Pattern} {t : Text} {best : List Text} :
    captures? p t = some best ↔
      Matches p best t ∧ ∀ groups, Matches p groups t → lengths groups ≤ lengths best := by
  constructor
  · intro found
    refine ⟨matches_of_captures? found, ?_⟩
    intro groups matched
    obtain ⟨other, same, bound⟩ := exists_captures? matched
    rw [found] at same
    rwa [Option.some.inj same]
  · rintro ⟨matched, greatest⟩
    obtain ⟨other, found, bound⟩ := exists_captures? matched
    have reverse := greatest other (matches_of_captures? found)
    rw [matched.eq_of_lengths (matches_of_captures? found) (le_antisymm bound reverse)]
    exact found

end UriTemplate.Pattern
