import Mathlib.Data.List.Forall2

/-!
Readings that can fail: of a whole list, which fails at the first member that cannot be read, and in
several steps, of which only one can fail.
-/

namespace UriTemplate

variable {ε α β γ : Type} {f : α → Except ε β}

theorem mapM_cons_eq_ok_iff {a : α} {as : List α} {bs : List β} :
    (a :: as).mapM f = .ok bs ↔ ∃ b rest, f a = .ok b ∧ as.mapM f = .ok rest ∧ bs = b :: rest := by
  rw [List.mapM_cons]
  cases f a with
  | error fault => simp [bind, Except.bind]
  | ok b =>
      cases as.mapM f with
      | error fault => simp [bind, Except.bind]
      | ok rest => simp [bind, Except.bind, pure, Except.pure, eq_comm]

theorem mapM_eq_ok_iff {as : List α} {bs : List β} :
    as.mapM f = .ok bs ↔ List.Forall₂ (fun a b => f a = .ok b) as bs := by
  induction as generalizing bs with
  | nil => cases bs <;> simp [pure, Except.pure]
  | cons a as ih =>
      rw [mapM_cons_eq_ok_iff, List.forall₂_cons_left_iff]
      constructor
      · rintro ⟨b, rest, first, others, rfl⟩
        exact ⟨b, rest, first, ih.mp others, rfl⟩
      · rintro ⟨b, rest, first, others, rfl⟩
        exact ⟨b, rest, first, ih.mpr others, rfl⟩

theorem exists_mapM_eq_ok {as : List α} (each : ∀ a ∈ as, ∃ b, f a = .ok b) :
    ∃ bs, as.mapM f = .ok bs := by
  induction as with
  | nil => exact ⟨[], rfl⟩
  | cons a as ih =>
      rw [List.forall_mem_cons] at each
      obtain ⟨b, first⟩ := each.1
      obtain ⟨bs, others⟩ := ih each.2
      exact ⟨b :: bs, mapM_cons_eq_ok_iff.mpr ⟨b, bs, first, others, rfl⟩⟩

theorem exists_of_mapM_eq_ok {as : List α} {bs : List β} (read : as.mapM f = .ok bs) {b : β}
    (member : b ∈ bs) : ∃ a ∈ as, f a = .ok b := by
  rw [mapM_eq_ok_iff] at read
  induction read with
  | nil => exact absurd member List.not_mem_nil
  | cons first _ ih =>
      rcases List.mem_cons.mp member with rfl | later
      · exact ⟨_, List.mem_cons_self, first⟩
      · obtain ⟨a, inside, read⟩ := ih later
        exact ⟨a, List.mem_cons_of_mem _ inside, read⟩

/-- The reading fails when the condition holds, and only then, with a fault of this kind. -/
inductive FailsIff (kind : ε → Prop) (condition : Prop) : Except ε β → Prop
  | ok {b} : ¬ condition → FailsIff kind condition (.ok b)
  | error {fault} : condition → kind fault → FailsIff kind condition (.error fault)

namespace FailsIff

variable {kind : ε → Prop} {condition : Prop} {result : Except ε β}

theorem ok_iff {b : β} : FailsIff kind condition (.ok b) ↔ ¬ condition := by
  constructor
  · intro fails
    cases fails with
    | ok sound => exact sound
  · exact FailsIff.ok

theorem error_iff {fault : ε} :
    FailsIff kind condition (.error fault : Except ε β) ↔ condition ∧ kind fault := by
  constructor
  · intro fails
    cases fails with
    | error failed isKind => exact ⟨failed, isKind⟩
  · rintro ⟨failed, isKind⟩
    exact FailsIff.error failed isKind

theorem congr {other : Prop} (fails : FailsIff kind condition result) (same : condition ↔ other) :
    FailsIff kind other result := by
  rwa [← propext same]

theorem map (fails : FailsIff kind condition result) (g : β → γ) :
    FailsIff kind condition (result.map g) := by
  cases fails with
  | ok sound => exact FailsIff.ok sound
  | error failed isKind => exact FailsIff.error failed isKind

theorem mapM {failing : α → Prop} (each : ∀ a, FailsIff kind (failing a) (f a)) (as : List α) :
    FailsIff kind (∃ a ∈ as, failing a) (as.mapM f) := by
  induction as with
  | nil => exact FailsIff.ok (by simp)
  | cons a as ih =>
      have first := each a
      rw [List.mapM_cons]
      cases found : f a with
      | error fault =>
          rw [found, error_iff] at first
          exact FailsIff.error ⟨a, by simp, first.1⟩ first.2
      | ok b =>
          rw [found, ok_iff] at first
          have later : (∃ other ∈ as, failing other) ↔ ∃ other ∈ a :: as, failing other := by
            simp [first]
          have rest := (ih.congr later).map (b :: ·)
          revert rest
          cases as.mapM f <;> exact id

end FailsIff

end UriTemplate
