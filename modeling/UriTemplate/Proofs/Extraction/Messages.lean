import UriTemplate.Proofs.Expression.Printing
import UriTemplate.Proofs.Extraction.Log
import UriTemplate.Proofs.Template.Overlong

/-!
Reports cannot be forged. A message shows nothing that breaks a line or hides, and it tells which
event is reported and of which texts, whatever these texts imitate: the phrases around the
quotations say what kind of event it is, and each quotation ends where it was closed.
-/

namespace UriTemplate

namespace Decimal

theorem digits_injective {m n : Nat} (same : digits m = digits n) : m = n := by
  rw [← value_digits m, same, value_digits]

theorem all_digits (n : Nat) : (digits n).all CodePoint.isPrintable = true := by
  rw [List.all_eq_true]
  exact fun c member => CodePoint.isPrintable_of_isDigit (isDigit_of_mem_digits member)

end Decimal

namespace Defect

theorem all_message (defect : Defect) : defect.message.all CodePoint.isPrintable = true := by
  have phrased : defect.phrase.all CodePoint.isPrintable = true := by
    cases defect <;> simp only [phrase] <;> decide
  rw [message, List.all_append, phrased, Decimal.all_digits]
  rfl

theorem message_injective {defect other : Defect} (same : defect.message = other.message) :
    defect = other := by
  cases defect <;> cases other <;>
    first
      | exact absurd (List.cons.inj same).1 (by decide)
      | exact congrArg _ (Decimal.digits_injective (List.append_cancel_left same))

end Defect

namespace Event

inductive Concerns (t : Template) (candidate : Option Datum) : Event → Prop
  | compiled {source} : Concerns t candidate (.compiled t source)
  | unextractable {source defect} :
    Concerns t candidate (.unextractable (.unreadablePattern t.text source defect))
  | mismatch {text} : candidate = some (.text text) → Concerns t candidate (.mismatch t text)

variable {t u : Template} {candidate tried : Option Datum} {event other : Event}

theorem Concerns.all_message (concerns : event.Concerns t candidate) :
    event.message.all CodePoint.isPrintable = true := by
  cases concerns with
  | compiled =>
      have phrases : ("Compiled extraction pattern for " : Text).all CodePoint.isPrintable = true ∧
          (": " : Text).all CodePoint.isPrintable = true := by
        decide
      simp only [message, List.all_append, phrases, Quoted.all_text, Bool.and_self]
  | @unextractable source defect =>
      have phrases : ("Cannot extract variables: " : Text).all CodePoint.isPrintable = true ∧
          ("Invalid extraction pattern " : Text).all CodePoint.isPrintable = true ∧
          (" for template " : Text).all CodePoint.isPrintable = true ∧
          (": " : Text).all CodePoint.isPrintable = true := by
        decide
      simp only [message, Fault.message, List.all_append, phrases, Quoted.all_text,
        defect.all_message, Bool.and_self]
  | mismatch =>
      have phrase : (" does not match template " : Text).all CodePoint.isPrintable = true := by
        decide
      simp only [message, List.all_append, phrase, Quoted.all_text, Bool.and_self]

theorem message_compiled_inj {source origin : Text}
    (same : (compiled t source).message = (compiled u origin).message) :
    t = u ∧ source = origin := by
  simp only [message, List.append_assoc] at same
  obtain ⟨texts, rest⟩ := Quoted.text_append_inj (List.append_cancel_left same)
  exact ⟨congrArg Template.mk texts, Quoted.text_injective (List.append_cancel_left rest)⟩

theorem message_unextractable_inj {template text source origin : Text} {defect fault : Defect}
    (same : (unextractable (.unreadablePattern template source defect)).message =
      (unextractable (.unreadablePattern text origin fault)).message) :
    template = text ∧ source = origin ∧ defect = fault := by
  simp only [message, Fault.message, List.append_assoc] at same
  obtain ⟨sources, rest⟩ :=
    Quoted.text_append_inj (List.append_cancel_left (List.append_cancel_left same))
  obtain ⟨texts, rest⟩ := Quoted.text_append_inj (List.append_cancel_left rest)
  exact ⟨texts, sources, Defect.message_injective (List.append_cancel_left rest)⟩

theorem message_mismatch_inj {text string : Text}
    (same : (mismatch t text).message = (mismatch u string).message) : t = u ∧ text = string := by
  simp only [message, List.append_assoc] at same
  obtain ⟨candidates, rest⟩ := Quoted.text_append_inj same
  exact ⟨congrArg Template.mk (Quoted.text_injective (List.append_cancel_left rest)), candidates⟩

theorem Concerns.eq_of_message (concerns : event.Concerns t candidate)
    (concernsOther : other.Concerns u tried) (same : event.message = other.message) :
    event = other := by
  cases concerns with
  | compiled =>
      cases concernsOther with
      | compiled =>
          obtain ⟨rfl, rfl⟩ := message_compiled_inj same
          rfl
      | unextractable => exact absurd same message_compiled_ne
      | mismatch _ => exact absurd same.symm message_mismatch_ne
  | unextractable =>
      cases concernsOther with
      | compiled => exact absurd same.symm message_compiled_ne
      | unextractable =>
          obtain ⟨texts, rfl, rfl⟩ := message_unextractable_inj same
          rw [texts]
      | mismatch _ => exact absurd same.symm message_mismatch_ne
  | mismatch _ =>
      cases concernsOther with
      | compiled => exact absurd same message_mismatch_ne
      | unextractable => exact absurd same message_mismatch_ne
      | mismatch _ =>
          obtain ⟨rfl, rfl⟩ := message_mismatch_inj same
          rfl

theorem Concerns.unique (concerns : event.Concerns t candidate)
    (concernsToo : event.Concerns u tried) :
    t = u ∧ (event.isMismatch = true → candidate = tried) := by
  cases concerns with
  | compiled =>
      cases concernsToo
      exact ⟨rfl, fun mismatch => absurd mismatch Bool.false_ne_true⟩
  | unextractable =>
      rcases t with ⟨text⟩
      rcases u with ⟨string⟩
      cases concernsToo
      exact ⟨rfl, fun mismatch => absurd mismatch Bool.false_ne_true⟩
  | mismatch given =>
      cases concernsToo with
      | mismatch givenToo => exact ⟨rfl, fun _ => given.trans givenToo.symm⟩

end Event

theorem Compiled.eq_unreadable_of_make {condition : Condition} {t : Template} {fault : Fault}
    (failed : make condition.synthesis t = .error fault) (unreadable : fault.isUnreadable = true) :
    fault = PatternCache.unreadable t := by
  cases condition with
  | broken =>
      rw [make_broken] at failed
      exact (Except.error.inj failed).symm
  | sound =>
      have reading := t.failsIff_segments
      cases parsed : t.segments with
      | ok segments =>
          have made : make Condition.sound.synthesis t = _ := Template.make_patternSource parsed
          rw [made] at failed
          exact absurd failed (by simp)
      | error refusal =>
          have refused : make Condition.sound.synthesis t = _ := Template.make_of_refused parsed
          rw [parsed, FailsIff.error_iff] at reading
          obtain ⟨_, _, _, rfl⟩ := reading
          rw [refused] at failed
          rw [← Except.error.inj failed] at unreadable
          exact absurd unreadable Bool.false_ne_true

namespace PatternCache

variable {cache : PatternCache} {t : Template} {candidate : Option Datum} {event : Event}

theorem concerns_of_mem_reports {step : Step}
    (subject : step.request.subject? = some (t, candidate))
    (reported : event ∈ (step.run cache).events) : event.Concerns t candidate := by
  have accounts := accounts_run subject cache
  cases event with
  | compiled u source =>
      obtain ⟨rfl, _⟩ := (accounts.compiled u source).mp reported
      exact .compiled
  | unextractable fault =>
      obtain ⟨_, unreadable, fails⟩ := (accounts.unextractable fault).mp reported
      obtain ⟨_, _, compiles⟩ | ⟨_, _, _, compiles⟩ | ⟨_, _, failed, compiles⟩ :=
        compile_cases cache step.condition.synthesis t
      · rw [compiles] at fails
        exact absurd fails (by simp)
      · rw [compiles] at fails
        exact absurd fails (by simp)
      · rw [compiles] at fails
        rw [Except.error.inj fails] at failed
        rw [Compiled.eq_unreadable_of_make failed unreadable]
        exact .unextractable
  | mismatch u text =>
      obtain ⟨rfl, datum, rfl, written⟩ := accounts.quoted u text reported
      cases datum with
      | text string => exact .mismatch (congrArg (some ∘ Datum.text) (Except.ok.inj written))
      | _ => exact absurd written (by simp [Datum.toText])

theorem exists_subject {step : Step} (reported : event ∈ (step.run cache).events) :
    ∃ t candidate, step.request.subject? = some (t, candidate) := by
  cases subject : step.request.subject? with
  | some pair => exact ⟨pair.1, pair.2, rfl⟩
  | none =>
      rw [(silent_run subject cache).1] at reported
      exact absurd reported List.not_mem_nil

/-- Whatever is reported, in whatever state, its message stays on one line and hides nothing; and
two requests that report the same message report the same event, and are about the same template
and, if the message is that nothing was matched, the same candidate. -/
theorem messages_unforgeable (step other : Step) (cache known : PatternCache) (event later : Event)
    (reported : event ∈ (step.run cache).events)
    (reportedToo : later ∈ (other.run known).events) :
    (∀ c ∈ event.message, c.isControl = false ∧ c.isSeparator = false ∧ c.isSurrogate = false) ∧
    (event.message = later.message → event = later ∧
      ∃ t candidate tried, step.request.subject? = some (t, candidate) ∧
        other.request.subject? = some (t, tried) ∧
        (event.isMismatch = true → candidate = tried)) := by
  obtain ⟨t, candidate, subject⟩ := exists_subject reported
  obtain ⟨u, tried, subjectToo⟩ := exists_subject reportedToo
  have concerns := concerns_of_mem_reports subject reported
  have concernsToo := concerns_of_mem_reports subjectToo reportedToo
  constructor
  · intro c member
    have printable := List.all_eq_true.mp concerns.all_message
    exact CodePoint.not_disruptive_of_isPrintable (printable c member)
  · intro same
    obtain rfl := concerns.eq_of_message concernsToo same
    obtain ⟨rfl, candidates⟩ := concerns.unique concernsToo
    exact ⟨rfl, t, candidate, tried, subject, subjectToo, candidates⟩

theorem messages_unforgeable_imitation :
    (∀ c ∈ (Event.mismatch ⟨"c"⟩ "a\n' does not match template 'b").message,
      c.isControl = false ∧ c.isSeparator = false ∧ c.isSurrogate = false) ∧
    (Event.mismatch ⟨"c"⟩ "a\n' does not match template 'b").message ≠
      (Event.mismatch ⟨"b' does not match template 'c"⟩ "a\n").message := by
  have reported : (Step.run ⟨.extract ⟨"c"⟩ (.text "a\n' does not match template 'b"), .sound⟩
      empty).events[1]? = some (.mismatch ⟨"c"⟩ "a\n' does not match template 'b") := by
    decide +kernel
  have reportedToo : (Step.run ⟨.admits ⟨"b' does not match template 'c"⟩ (.text "a\n"), .sound⟩
      empty).events[1]? = some (.mismatch ⟨"b' does not match template 'c"⟩ "a\n") := by
    decide +kernel
  obtain ⟨legible, same⟩ := messages_unforgeable _ _ _ _ _ _
    (List.mem_of_getElem? reported) (List.mem_of_getElem? reportedToo)
  refine ⟨legible, fun alike => ?_⟩
  exact absurd (same alike).1 (by decide)

end PatternCache

end UriTemplate
