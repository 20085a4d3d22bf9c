import UriTemplate.Proofs.Pattern.Matching

/-!
Patterns that match a text in one way only. When a character that no plain group takes stands
between any two groups, a plain group ends where the first such character behind it forces it to,
and what is behind a free group is found from the right by counting these characters.
-/

namespace UriTemplate.Pattern

def lead : Pattern → Text
  | .char c :: p => if isPlain c then c :: lead p else []
  | _ => []

/-- Before the first group there is a character that no plain group takes. -/
def Anchored : Pattern → Prop
  | [] => True
  | .char c :: p => isPlain c = true → Anchored p
  | .free :: _ => False
  | .plain :: _ => False

/-- Between any two groups there is a character that no plain group takes. -/
def Separated : Pattern → Prop
  | [] => True
  | .char _ :: p => Separated p
  | .free :: p => Anchored p ∧ Separated p
  | .plain :: p => Anchored p ∧ Separated p

def isOutside : Token → Bool
  | .char c => !isPlain c
  | _ => false

theorem takeWhile_of_anchored {p : Pattern} {groups : List Text} {t : Text} (anchored : Anchored p)
    (matched : Matches p groups t) : t.takeWhile isPlain = lead p := by
  induction matched with
  | nil => rfl
  | @char c p groups t _ ih =>
      by_cases allowed : isPlain c = true
      · rw [List.takeWhile_cons_of_pos allowed, ih (anchored allowed), lead, if_pos allowed]
      · rw [List.takeWhile_cons_of_neg allowed, lead, if_neg allowed]
  | free => exact anchored.elim
  | plain => exact anchored.elim

theorem countP_of_matches {p : Pattern} {groups : List Text} {t : Text} (plain : .free ∉ p)
    (matched : Matches p groups t) :
    t.countP (fun c => !isPlain c) = p.countP isOutside := by
  induction matched with
  | nil => rfl
  | char _ ih =>
      simp only [List.mem_cons, not_or] at plain
      rw [List.countP_cons, List.countP_cons, ih plain.2]
      rfl
  | free => simp at plain
  | @plain p group groups t _ allowed _ ih =>
      simp only [List.mem_cons, not_or] at plain
      have none : group.countP (fun c => !isPlain c) = 0 := by
        rw [List.countP_eq_zero]
        intro c member
        simp [allowed c member]
      rw [List.countP_append, List.countP_cons, none, ih plain.2, Nat.zero_add]
      rfl

/-- A text cannot be lengthened at the front when neither the plain characters at its beginning nor
the number of the others may change. -/
theorem eq_nil_of_same_lead {surplus t : Text}
    (same : (surplus ++ t).takeWhile isPlain = t.takeWhile isPlain)
    (count : (surplus ++ t).countP (fun c => !isPlain c) = t.countP fun c => !isPlain c) :
    surplus = [] := by
  rw [List.countP_append] at count
  have none : surplus.countP (fun c => !isPlain c) = 0 := by omega
  have allowed : ∀ c ∈ surplus, isPlain c = true := by
    intro c member
    simpa using List.countP_eq_zero.mp none c member
  rw [List.takeWhile_append_of_pos allowed] at same
  have size := congrArg List.length same
  rw [List.length_append] at size
  exact List.eq_nil_of_length_eq_zero (by omega)

theorem eq_of_append_eq {first second rest other : Text} (whole : first ++ rest = second ++ other)
    (same : rest.takeWhile isPlain = other.takeWhile isPlain)
    (count : rest.countP (fun c => !isPlain c) = other.countP fun c => !isPlain c) :
    first = second ∧ rest = other := by
  rcases List.append_eq_append_iff.mp whole with ⟨surplus, rfl, rfl⟩ | ⟨surplus, rfl, rfl⟩
  · rw [eq_nil_of_same_lead same count]
    simp
  · rw [eq_nil_of_same_lead same.symm count.symm]
    simp

theorem Matches.unique {p : Pattern} {groups others : List Text} {t : Text}
    (separated : Separated p) (atMostOne : p.count .free ≤ 1) (matched : Matches p groups t)
    (other : Matches p others t) : groups = others := by
  induction matched generalizing others with
  | nil =>
      cases other
      rfl
  | char _ ih =>
      cases other with
      | char other =>
          rw [List.count_cons_of_ne (by simp)] at atMostOne
          exact ih separated atMostOne other
  | @free p group groups t _ matched ih =>
      rw [List.count_cons_self] at atMostOne
      -- There is no free group behind this one, so the pattern alone tells which plain characters
      -- the rest begins with and how many others it has.
      have plain : .free ∉ p := List.count_eq_zero.mp (by omega)
      generalize whole : group ++ t = text at other
      cases other with
      | free _ other =>
          have lead := (takeWhile_of_anchored separated.1 matched).trans
            (takeWhile_of_anchored separated.1 other).symm
          have count := (countP_of_matches plain matched).trans (countP_of_matches plain other).symm
          obtain ⟨rfl, rfl⟩ := eq_of_append_eq whole lead count
          rw [ih separated.2 (by omega) other]
  | @plain p group groups t _ allowed matched ih =>
      rw [List.count_cons_of_ne (by simp)] at atMostOne
      generalize whole : group ++ t = text at other
      cases other with
      | @plain _ second others rest _ otherAllowed other =>
          -- The group and the plain characters behind it are the longest plain beginning of the text.
          have taken : group ++ t.takeWhile isPlain = second ++ rest.takeWhile isPlain := by
            rw [← List.takeWhile_append_of_pos allowed, whole,
              List.takeWhile_append_of_pos otherAllowed]
          rw [takeWhile_of_anchored separated.1 matched,
            takeWhile_of_anchored separated.1 other] at taken
          obtain rfl := List.append_cancel_right taken
          obtain rfl := List.append_cancel_left whole
          rw [ih separated.2 atMostOne other]

end UriTemplate.Pattern
