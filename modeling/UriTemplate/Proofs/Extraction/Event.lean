import UriTemplate.Extraction.Event
import UriTemplate.Proofs.Text.Quoted

/-!
The kinds of reports, and the fixed words of a message that tell of which kind it is.
-/

namespace UriTemplate.Event

def isCompiled : Event → Bool
  | compiled .. => true
  | _ => false

def isMismatch : Event → Bool
  | mismatch .. => true
  | _ => false

def explains (event : Event) : Bool := !event.isCompiled

def isWarning (event : Event) : Bool := event.level = .warning

/-- The message shows the kind of the event, whatever the texts that it quotes. -/
structure Worded (event : Event) : Prop where
  compiled : event.isCompiled = true ↔ ("Compiled extraction pattern for " : Text) <+: event.message
  warning : event.isWarning = true ↔ ("Cannot extract variables: " : Text) <+: event.message
  mismatch : event.isMismatch = true ↔ ∃ candidate template, event.message =
    Quoted.text candidate ++ " does not match template " ++ Quoted.text template

variable {t : Template} {source text rest other : Text} {fault : Fault}

theorem quoted_append_ne : Quoted.text text ++ rest ≠ .ofChar 'C' :: other := by
  have unmarked : ∀ quote ∈ Quoted.marks, quote ≠ .ofChar 'C' := by decide
  intro same
  exact unmarked _ (Quoted.mark_mem_marks text) (List.cons.inj same).1

theorem message_mismatch_ne : (mismatch t text).message ≠ .ofChar 'C' :: rest := by
  rw [message, List.append_assoc]
  exact quoted_append_ne

theorem compiled_ne_cannot :
    ("Compiled extraction pattern for " : Text) ++ rest ≠
      "Cannot extract variables: " ++ other := by
  have apart : (CodePoint.ofChar 'o') ≠ .ofChar 'a' := by decide
  intro same
  exact apart (List.cons.inj (List.cons.inj same).2).1

theorem message_compiled_ne :
    (compiled t source).message ≠ (unextractable fault).message := by
  simp only [message, List.append_assoc]
  exact compiled_ne_cannot

theorem worded (event : Event) : event.Worded := by
  constructor
  case compiled =>
    cases event with
    | compiled t source =>
        refine iff_of_true rfl ?_
        simp only [message, List.append_assoc, List.prefix_append]
    | unextractable fault =>
        refine iff_of_false Bool.false_ne_true ?_
        rintro ⟨rest, same⟩
        exact compiled_ne_cannot same
    | mismatch t text =>
        refine iff_of_false Bool.false_ne_true ?_
        rintro ⟨rest, same⟩
        exact message_mismatch_ne same.symm
  case warning =>
    cases event with
    | compiled t source =>
        refine iff_of_false Bool.false_ne_true ?_
        rintro ⟨rest, same⟩
        simp only [message, List.append_assoc] at same
        exact compiled_ne_cannot same.symm
    | unextractable fault => exact iff_of_true rfl (List.prefix_append _ _)
    | mismatch t text =>
        refine iff_of_false Bool.false_ne_true ?_
        rintro ⟨rest, same⟩
        exact message_mismatch_ne same.symm
  case mismatch =>
    cases event with
    | compiled t source =>
        refine iff_of_false Bool.false_ne_true ?_
        rintro ⟨candidate, template, same⟩
        rw [List.append_assoc] at same
        exact quoted_append_ne same.symm
    | unextractable fault =>
        refine iff_of_false Bool.false_ne_true ?_
        rintro ⟨candidate, template, same⟩
        rw [List.append_assoc] at same
        exact quoted_append_ne same.symm
    | mismatch t text => exact iff_of_true rfl ⟨text, t.text, rfl⟩

end UriTemplate.Event
