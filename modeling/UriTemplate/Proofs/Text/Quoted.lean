import UriTemplate.Proofs.Text.Hex
import UriTemplate.Text.Quoted

/-!
Quoting is safe and loses nothing. What a quoted text shows is printable, so it stays on one line.
Each character is written in a form that is read back wherever it stands, and the quote mark is
never one of these, so a quoted text ends where it ends, whatever follows it: no text can imitate
the end of a quotation and what comes behind.
-/

namespace UriTemplate

namespace CodePoint

/-- Delete, or one of the controls below the space and behind delete. -/
def isControl (c : CodePoint) : Bool := c.value < 0x20 || (0x7f ≤ c.value && c.value ≤ 0x9f)

def isSeparator (c : CodePoint) : Bool := c.value = 0x2028 || c.value = 0x2029

theorem hidden_disruptive :
    ∀ range ∈ [(0x7f, 0xa0), (0x2028, 0x202f), (0xd7fc, 0xf8ff)], range ∈ hiddenRanges := by
  decide +kernel

theorem not_disruptive_of_isPrintable {c : CodePoint} (printable : c.isPrintable = true) :
    c.isControl = false ∧ c.isSeparator = false ∧ c.isSurrogate = false := by
  have outside : (0x20 ≤ c.value ∧ c.value < 0x7f) ∨
      ∀ range ∈ [(0x7f, 0xa0), (0x2028, 0x202f), (0xd7fc, 0xf8ff)],
        0x80 ≤ c.value ∧ ¬ (range.1 ≤ c.value ∧ c.value ≤ range.2) := by
    unfold isPrintable isAscii at printable
    split at printable
    · exact Or.inl (by simpa using printable)
    · rename_i other
      refine Or.inr fun range listed => ⟨by simpa using other, ?_⟩
      simp only [Bool.not_eq_true', List.any_eq_false] at printable
      simpa using printable range (hidden_disruptive range listed)
  rcases outside with ascii | apart
  · simp only [isControl, isSeparator, isSurrogate, Bool.or_eq_false_iff, Bool.and_eq_false_iff,
      decide_eq_false_iff_not]
    omega
  · have controls := apart (0x7f, 0xa0) (by simp)
    have separators := apart (0x2028, 0x202f) (by simp)
    have surrogates := apart (0xd7fc, 0xf8ff) (by simp)
    simp only [isControl, isSeparator, isSurrogate, Bool.or_eq_false_iff, Bool.and_eq_false_iff,
      decide_eq_false_iff_not]
    omega

theorem isPrintable_of_isDigit {c : CodePoint} (digit : c.isDigit = true) :
    c.isPrintable = true := by
  simp only [isDigit, Bool.and_eq_true, decide_eq_true_eq] at digit
  have ascii : c.isAscii = true := by
    rw [isAscii, decide_eq_true_eq]
    omega
  rw [isPrintable, if_pos ascii, Bool.and_eq_true, decide_eq_true_eq, decide_eq_true_eq]
  omega

end CodePoint

namespace Hex

theorem isPrintable_lowerDigit : ∀ n < 16, (lowerDigit n).isPrintable = true := by
  decide

theorem all_lower (width n : Nat) : (lower width n).all CodePoint.isPrintable = true := by
  rw [List.all_eq_true]
  intro c member
  obtain ⟨m, small, rfl⟩ := exists_of_mem_lower member
  exact isPrintable_lowerDigit m small

end Hex

namespace Quoted

variable {shown : CodePoint → Bool} {quote c : CodePoint}

def marks : List CodePoint := ['\'', '"']

theorem mark_mem_marks (t : Text) : mark t ∈ marks := by
  unfold mark
  split <;> decide

def blanks : List (CodePoint × CodePoint) := [('t', '\t'), ('n', '\n'), ('r', '\r')]

def widths : List (CodePoint × Nat) := [('x', 2), ('u', 4), ('U', 8)]

theorem escapePoint_forms (shown : CodePoint → Bool) (quote c : CodePoint) :
    ((c = quote ∨ c = .ofChar '\\') ∧ escapePoint shown quote c = [.ofChar '\\', c]) ∨
    (∃ letter, (letter, c) ∈ blanks ∧ escapePoint shown quote c = [.ofChar '\\', letter]) ∨
    (∃ letter width, (letter, width) ∈ widths ∧ c.value < 16 ^ width ∧
      escapePoint shown quote c = .ofChar '\\' :: letter :: Hex.lower width c.value) ∨
    (c ≠ quote ∧ c ≠ .ofChar '\\' ∧ shown c = true ∧ escapePoint shown quote c = [c]) := by
  have bound := c.value_lt
  unfold escapePoint
  split
  · rename_i itself
    exact Or.inl ⟨itself, rfl⟩
  rename_i unquoted
  rw [not_or] at unquoted
  split
  · rename_i tab
    exact Or.inr (Or.inl ⟨'t', by simp [blanks, tab], rfl⟩)
  split
  · rename_i lineFeed
    exact Or.inr (Or.inl ⟨'n', by simp [blanks, lineFeed], rfl⟩)
  split
  · rename_i carriageReturn
    exact Or.inr (Or.inl ⟨'r', by simp [blanks, carriageReturn], rfl⟩)
  split
  · rename_i visible
    exact Or.inr (Or.inr (Or.inr ⟨unquoted.1, unquoted.2, visible, rfl⟩))
  split
  · exact Or.inr (Or.inr (Or.inl ⟨'x', 2, by simp [widths], by omega, rfl⟩))
  split
  · exact Or.inr (Or.inr (Or.inl ⟨'u', 4, by simp [widths], by omega, rfl⟩))
  · exact Or.inr (Or.inr (Or.inl ⟨'U', 8, by simp [widths], by omega, rfl⟩))

/-! Reading a character back. -/

def readEscape (letter : CodePoint) (rest : Text) : Option (CodePoint × Text) :=
  match widths.lookup letter with
  | some width => (Hex.number? (rest.take width)).map fun n => (.ofNat n, rest.drop width)
  | none => some ((blanks.lookup letter).getD letter, rest)

def readPoint : Text → Option (CodePoint × Text)
  | [] => none
  | [c] => some (c, [])
  | c :: d :: rest => if c = '\\' then readEscape d rest else some (c, d :: rest)

theorem readPoint_backslash (letter : CodePoint) (rest : Text) :
    readPoint (.ofChar '\\' :: letter :: rest) = readEscape letter rest := by
  rw [readPoint, if_pos rfl]

theorem readPoint_shown (unescaped : c ≠ .ofChar '\\') (rest : Text) :
    readPoint (c :: rest) = some (c, rest) := by
  cases rest with
  | nil => rfl
  | cons d rest => exact if_neg unescaped

theorem readEscape_itself (itself : c ∈ marks ∨ c = .ofChar '\\') (rest : Text) :
    readEscape c rest = some (c, rest) := by
  have unlisted : ∀ c ∈ CodePoint.ofChar '\\' :: marks,
      widths.lookup c = none ∧ blanks.lookup c = none := by
    decide
  obtain ⟨noWidth, noBlank⟩ := unlisted c (List.mem_cons.mpr itself.symm)
  rw [readEscape, noWidth, noBlank]
  rfl

theorem readEscape_blank {letter : CodePoint} (listed : (letter, c) ∈ blanks) (rest : Text) :
    readEscape letter rest = some (c, rest) := by
  have found : ∀ pair ∈ blanks,
      widths.lookup pair.1 = none ∧ blanks.lookup pair.1 = some pair.2 := by
    decide
  obtain ⟨noWidth, blank⟩ := found _ listed
  rw [readEscape, noWidth, blank]
  rfl

theorem readEscape_numbered {letter : CodePoint} {width : Nat} (listed : (letter, width) ∈ widths)
    (enough : c.value < 16 ^ width) (rest : Text) :
    readEscape letter (Hex.lower width c.value ++ rest) = some (c, rest) := by
  have found : ∀ pair ∈ widths, widths.lookup pair.1 = some pair.2 := by decide
  have size := Hex.length_lower width c.value
  rw [readEscape, found _ listed]
  simp only [List.take_left' size, List.drop_left' size, Hex.number?_lower_of_lt enough,
    Option.map_some, CodePoint.ofNat_value]

theorem readPoint_escapePoint (marked : quote ∈ marks) (c : CodePoint) (rest : Text) :
    readPoint (escapePoint shown quote c ++ rest) = some (c, rest) := by
  rcases escapePoint_forms shown quote c with ⟨itself, written⟩ | ⟨letter, listed, written⟩ |
    ⟨letter, width, listed, enough, written⟩ | ⟨_, unescaped, _, written⟩
  · have known : c ∈ marks ∨ c = .ofChar '\\' := by
      rcases itself with rfl | backslash
      · exact Or.inl marked
      · exact Or.inr backslash
    rw [written, ← readEscape_itself known rest, ← readPoint_backslash]
    rfl
  · rw [written, ← readEscape_blank listed rest, ← readPoint_backslash]
    rfl
  · rw [written, ← readEscape_numbered listed enough rest, ← readPoint_backslash]
    rfl
  · rw [written, List.singleton_append, readPoint_shown unescaped]

theorem escapePoint_append_inj (marked : quote ∈ marks) {c d : CodePoint} {left right : Text}
    (same : escapePoint shown quote c ++ left = escapePoint shown quote d ++ right) :
    c = d ∧ left = right := by
  have read := congrArg readPoint same
  rw [readPoint_escapePoint marked, readPoint_escapePoint marked, Option.some.injEq,
    Prod.mk.injEq] at read
  exact read

/-! A quoted text ends at the first mark that is not written for a character. -/

theorem escapePoint_opening (shown : CodePoint → Bool) (quote c : CodePoint) :
    (∃ rest, escapePoint shown quote c = .ofChar '\\' :: rest) ∨
      (c ≠ quote ∧ escapePoint shown quote c = [c]) := by
  rcases escapePoint_forms shown quote c with ⟨_, written⟩ | ⟨_, _, written⟩ |
    ⟨_, _, _, _, written⟩ | ⟨unquoted, _, _, written⟩
  · exact Or.inl ⟨_, written⟩
  · exact Or.inl ⟨_, written⟩
  · exact Or.inl ⟨_, written⟩
  · exact Or.inr ⟨unquoted, written⟩

theorem escapePoint_append_ne (marked : quote ∈ marks) (c : CodePoint) (left right : Text) :
    escapePoint shown quote c ++ left ≠ quote :: right := by
  have different : ∀ quote ∈ marks, CodePoint.ofChar '\\' ≠ quote := by decide
  intro same
  rcases escapePoint_opening shown quote c with ⟨rest, written⟩ | ⟨unquoted, written⟩
  · rw [written] at same
    exact different quote marked (List.cons.inj same).1
  · rw [written] at same
    exact unquoted (List.cons.inj same).1

/-- Neither text can end before the other does: where one has its mark, the other has a character,
and none is written with the mark in front. -/
theorem closed_append_inj (marked : quote ∈ marks) {t u left right : Text}
    (same : t.flatMap (escapePoint shown quote) ++ quote :: left =
      u.flatMap (escapePoint shown quote) ++ quote :: right) : t = u ∧ left = right := by
  induction t generalizing u with
  | nil =>
      cases u with
      | nil => exact ⟨rfl, (List.cons.inj same).2⟩
      | cons d u =>
          rw [List.flatMap_cons, List.append_assoc] at same
          exact absurd same.symm (escapePoint_append_ne marked d _ left)
  | cons c t ih =>
      rw [List.flatMap_cons, List.append_assoc] at same
      cases u with
      | nil => exact absurd same (escapePoint_append_ne marked c _ right)
      | cons d u =>
          rw [List.flatMap_cons, List.append_assoc] at same
          obtain ⟨rfl, rest⟩ := escapePoint_append_inj marked same
          obtain ⟨rfl, ends⟩ := ih rest
          exact ⟨rfl, ends⟩

theorem write_append (shown : CodePoint → Bool) (t rest : Text) :
    write shown t ++ rest =
      mark t :: (t.flatMap (escapePoint shown (mark t)) ++ mark t :: rest) := by
  simp [write]

theorem write_append_inj {t u left right : Text}
    (same : write shown t ++ left = write shown u ++ right) : t = u ∧ left = right := by
  rw [write_append, write_append] at same
  obtain ⟨marksAgree, rest⟩ := List.cons.inj same
  rw [marksAgree] at rest
  exact closed_append_inj (mark_mem_marks u) rest

theorem text_append_inj {t u left right : Text} (same : text t ++ left = text u ++ right) :
    t = u ∧ left = right :=
  write_append_inj same

theorem text_injective {t u : Text} (same : text t = text u) : t = u :=
  (text_append_inj (congrArg (· ++ []) same)).1

/-! What is shown. -/

theorem isPrintable_of_mem_marks : ∀ quote ∈ marks, quote.isPrintable = true := by
  decide

theorem all_escapePoint (marked : quote ∈ marks) (c : CodePoint) :
    (escapePoint CodePoint.isPrintable quote c).all CodePoint.isPrintable = true := by
  have backslash : CodePoint.isPrintable '\\' = true := by decide
  rcases escapePoint_forms CodePoint.isPrintable quote c with ⟨rfl | rfl, written⟩ |
    ⟨letter, listed, written⟩ | ⟨letter, width, listed, _, written⟩ | ⟨_, _, visible, written⟩
  · simp [written, backslash, isPrintable_of_mem_marks _ marked]
  · simp [written, backslash]
  · have letters : ∀ pair ∈ blanks, pair.1.isPrintable = true := by decide
    simp [written, backslash, letters _ listed]
  · have letters : ∀ pair ∈ widths, pair.1.isPrintable = true := by decide
    rw [written, List.all_cons, List.all_cons, backslash, letters _ listed,
      Hex.all_lower]
    rfl
  · simp [written, visible]

theorem all_text (t : Text) : (text t).all CodePoint.isPrintable = true := by
  have visible := isPrintable_of_mem_marks _ (mark_mem_marks t)
  have inside : (t.flatMap (escapePoint CodePoint.isPrintable (mark t))).all
      CodePoint.isPrintable = true := by
    rw [List.all_flatMap, List.all_eq_true]
    exact fun c _ => all_escapePoint (mark_mem_marks t) c
  rw [text, write, List.all_append, List.all_cons, inside, visible, List.all_cons, visible]
  rfl

end Quoted

end UriTemplate
