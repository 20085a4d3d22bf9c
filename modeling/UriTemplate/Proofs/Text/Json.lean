import UriTemplate.Proofs.Text.Hex
import UriTemplate.Text.JsonDocument
import UriTemplate.Text.JsonSyntax

/-!
Strings in JSON are read as what they spell, whichever spellings they use, and what is written is a
spelling of each character. So no text is changed on the way and none ends early.
-/

namespace UriTemplate

namespace Json

variable {c : CodePoint} {written digits rest t : Text} {n : Nat}

theorem Spells.flatMap {spelling : CodePoint → Text}
    (spelled : ∀ c ∈ t, Spelling (spelling c) c) : Spells (t.flatMap spelling) t := by
  induction t with
  | nil => exact .nil
  | cons c t ih =>
      rw [List.flatMap_cons]
      exact .cons (spelled c List.mem_cons_self)
        (ih fun other member => spelled other (List.mem_cons_of_mem c member))

theorem isSurrogate_of_mem_letters : ∀ pair ∈ letters, pair.1.isSurrogate = false := by
  decide

theorem Spelling.hasSurrogate_eq_false (spelled : Spelling written c)
    (scalar : c.isSurrogate = false) : written.hasSurrogate = false := by
  have escape {rest : Text} (scalars : rest.hasSurrogate = false) :
      Text.hasSurrogate (.ofChar '\\' :: .ofChar 'u' :: rest) = false :=
    Text.hasSurrogate_cons_eq_false_iff.mpr
      ⟨by decide, Text.hasSurrogate_cons_eq_false_iff.mpr ⟨by decide, scalars⟩⟩
  cases spelled with
  | plain _ _ _ => exact Text.hasSurrogate_cons_eq_false_iff.mpr ⟨scalar, rfl⟩
  | letter listed =>
      exact Text.hasSurrogate_cons_eq_false_iff.mpr ⟨by decide,
        Text.hasSurrogate_cons_eq_false_iff.mpr ⟨isSurrogate_of_mem_letters _ listed, rfl⟩⟩
  | number unit _ => exact escape (Hex.hasSurrogate_of_number? unit.2)
  | pair first second _ _ _ _ =>
      refine escape (Text.hasSurrogate_append_eq_false_iff.mpr ⟨?_, escape ?_⟩)
      · exact Hex.hasSurrogate_of_number? first.2
      · exact Hex.hasSurrogate_of_number? second.2

theorem Spells.hasSurrogate_eq_false (spelled : Spells written t)
    (scalars : t.hasSurrogate = false) : written.hasSurrogate = false := by
  induction spelled with
  | nil => rfl
  | cons first _ ih =>
      rw [Text.hasSurrogate_cons_eq_false_iff] at scalars
      exact Text.hasSurrogate_append_eq_false_iff.mpr
        ⟨first.hasSurrogate_eq_false scalars.1, ih scalars.2⟩

theorem IsString.hasSurrogate_eq_false {document : Text} (string : IsString document t)
    (scalars : t.hasSurrogate = false) : document.hasSurrogate = false := by
  obtain ⟨written, spelled, rfl⟩ := string
  refine Text.hasSurrogate_cons_eq_false_iff.mpr ⟨by decide, ?_⟩
  exact Text.hasSurrogate_append_eq_false_iff.mpr
    ⟨spelled.hasSurrogate_eq_false scalars, by decide⟩

def withFirst (c : CodePoint) (read : Option (Text × Text)) : Option (Text × Text) :=
  read.map fun (more, rest) => (c :: more, rest)

theorem readString_plain (unquoted : c ≠ .ofChar '"') (unescaped : c ≠ .ofChar '\\')
    (visible : 0x20 ≤ c.value) (fuel : Nat) (rest : Text) :
    readString (fuel + 1) (c :: rest) = withFirst c (readString fuel rest) := by
  simp only [readString]
  rw [if_neg unquoted, if_neg (by omega), if_neg unescaped]
  rfl

theorem readString_letter {letter : CodePoint} (stands : escapedBy? letter = some c) (fuel : Nat)
    (rest : Text) :
    readString (fuel + 1) (.ofChar '\\' :: letter :: rest) =
      withFirst c (readString fuel rest) := by
  have unnumbered : letter ≠ .ofChar 'u' := by
    rintro rfl
    have refused : escapedBy? 'u' = none := by decide
    rw [refused] at stands
    exact absurd stands.symm (Option.some_ne_none c)
  simp only [readString]
  rw [if_neg (by decide), if_neg (by decide), if_pos trivial, if_neg unnumbered, stands]
  simp only [Option.map_some, Option.bind_eq_bind, Option.bind_some]
  cases readString fuel rest <;> rfl

theorem readString_numbered (stands : readNumbered t = some (c, rest)) (fuel : Nat) :
    readString (fuel + 1) (.ofChar '\\' :: .ofChar 'u' :: t) =
      withFirst c (readString fuel rest) := by
  simp only [readString]
  rw [if_neg (by decide), if_neg (by decide), if_pos trivial, if_pos trivial, stands]
  simp only [Option.bind_eq_bind, Option.bind_some]
  cases readString fuel rest <;> rfl

theorem readUnit_append (unit : IsUnit digits n) (rest : Text) :
    readUnit (digits ++ rest) = some (n, rest) := by
  obtain ⟨four, number⟩ := unit
  match digits, four with
  | [a, b, c, d], _ =>
    simp only [Hex.number?, List.foldlM_cons, List.foldlM_nil, Option.bind_eq_bind,
      Option.bind_eq_some_iff, Option.map_eq_some_iff, Option.pure_def, Option.some.injEq] at number
    obtain ⟨_, ⟨i, first, rfl⟩, _, ⟨j, second, rfl⟩, _, ⟨k, third, rfl⟩, _, ⟨l, fourth, rfl⟩,
      rfl⟩ := number
    simp only [List.cons_append, List.nil_append, readUnit, first, second, third, fourth,
      Option.bind_eq_bind, Option.bind_some, Option.pure_def, Nat.zero_mul, Nat.zero_add]

theorem readNumbered_scalar (unit : IsUnit digits n) (scalar : n < 0xd800 ∨ 0xdfff < n)
    (rest : Text) : readNumbered (digits ++ rest) = some (.ofNat n, rest) := by
  unfold readNumbered
  rw [readUnit_append unit]
  exact if_pos scalar

theorem readNumbered_pair {first second : Text} {high low : Nat} (firstUnit : IsUnit first high)
    (secondUnit : IsUnit second low) (above : 0xd800 ≤ high) (below : high < 0xdc00)
    (lowAbove : 0xdc00 ≤ low) (lowBelow : low ≤ 0xdfff) (rest : Text) :
    readNumbered (first ++ .ofChar '\\' :: .ofChar 'u' :: (second ++ rest)) =
      some (.ofNat (0x10000 + (high - 0xd800) * 0x400 + (low - 0xdc00)), rest) := by
  have between : ¬(high < 0xd800 ∨ 0xdfff < high) := by omega
  have marked := Text.after?_append "\\u" (second ++ rest)
  change Text.after? "\\u" (.ofChar '\\' :: .ofChar 'u' :: (second ++ rest)) = _ at marked
  have isHigh : (guard (high < 0xdc00) : Option Unit) = some () := if_pos below
  have isLow : (guard (0xdc00 ≤ low ∧ low ≤ 0xdfff) : Option Unit) = some () :=
    if_pos ⟨lowAbove, lowBelow⟩
  unfold readNumbered
  rw [readUnit_append firstUnit]
  refine (if_neg between).trans ?_
  rw [isHigh, marked]
  change (readUnit (second ++ rest) >>= _) = _
  rw [readUnit_append secondUnit]
  change ((guard (0xdc00 ≤ low ∧ low ≤ 0xdfff) : Option Unit) >>= _) = _
  rw [isLow]
  rfl

theorem escapedBy?_of_mem_letters : ∀ pair ∈ letters, escapedBy? pair.1 = some pair.2 := by
  decide

theorem readString_spelling (spelled : Spelling written c) (fuel : Nat) (rest : Text) :
    readString (fuel + 1) (written ++ rest) = withFirst c (readString fuel rest) := by
  cases spelled with
  | plain visible unquoted unescaped =>
      exact readString_plain unquoted unescaped visible fuel rest
  | letter listed => exact readString_letter (escapedBy?_of_mem_letters _ listed) fuel rest
  | number unit scalar => exact readString_numbered (readNumbered_scalar unit scalar rest) fuel
  | pair first second above below lowAbove lowBelow =>
      simp only [List.cons_append, List.append_assoc]
      exact readString_numbered
        (readNumbered_pair first second above below lowAbove lowBelow rest) fuel

theorem Spelling.ne_nil (spelled : Spelling written c) : written ≠ [] := by
  cases spelled <;> exact List.cons_ne_nil _ _

theorem Spells.length_le (spelled : Spells written t) : t.length ≤ written.length := by
  induction spelled with
  | nil => exact Nat.le_refl 0
  | cons first _ ih =>
      have one := List.length_pos_iff.mpr first.ne_nil
      rw [List.length_append, List.length_cons]
      omega

theorem readString_spells (spelled : Spells written t) (rest : Text) (spare : Nat) :
    readString (t.length + 1 + spare) (written ++ .ofChar '"' :: rest) = some (t, rest) := by
  -- Fuel is spent by characters, not by what they are written with.
  induction spelled with
  | nil =>
      rw [List.length_nil, Nat.zero_add, Nat.add_comm, List.nil_append]
      simp only [readString]
      rw [if_pos trivial]
  | @cons _ _ t c first _ ih =>
      have fuel : (c :: t).length + 1 + spare = t.length + 1 + spare + 1 := by
        rw [List.length_cons]
        omega
      rw [fuel, List.append_assoc, readString_spelling first, ih]
      rfl

theorem read?_string {document : Text} (string : IsString document t) :
    read? document = some (.string t) := by
  obtain ⟨written, spelled, rfl⟩ := string
  obtain ⟨spare, length⟩ : ∃ spare,
      (written ++ [CodePoint.ofChar '"']).length + 1 = t.length + 1 + spare := by
    have enough := spelled.length_le
    rw [List.length_append, List.length_singleton]
    exact ⟨written.length + 1 - t.length, by omega⟩
  have opening : skipBlanks (.ofChar '"' :: (written ++ [.ofChar '"'])) =
      .ofChar '"' :: (written ++ [.ofChar '"']) := rfl
  have value : ∀ fuel depth, readValue (fuel + 1) depth
      (.ofChar '"' :: (written ++ [.ofChar '"'])) = some (.string t, []) := by
    intro fuel depth
    simp only [readValue, opening]
    rw [if_pos trivial, length, readString_spells spelled]
    rfl
  unfold read?
  rw [value]
  rfl

theorem spelling_escapePoint (c : CodePoint) : Spelling (escapePoint c) c := by
  have lettered {mark meant : CodePoint} (listed : (mark, meant) ∈ letters) (same : c = meant) :
      Spelling [.ofChar '\\', mark] c := same ▸ .letter listed
  have numbered {n : Nat} (same : c.value = n) : c = .ofNat n := by
    rw [← same, CodePoint.ofNat_value]
  unfold escapePoint
  split
  · rename_i quoted
    rcases quoted with rfl | rfl <;> exact .letter (by decide)
  rename_i unquoted
  split
  · rename_i backspace
    exact lettered (by decide) (numbered backspace)
  split
  · rename_i tab
    exact lettered (by decide) tab
  split
  · rename_i lineFeed
    exact lettered (by decide) lineFeed
  split
  · rename_i formFeed
    exact lettered (by decide) (numbered formFeed)
  split
  · rename_i carriageReturn
    exact lettered (by decide) carriageReturn
  split
  · rename_i control
    have unit : IsUnit (Hex.lower 4 c.value) c.value :=
      ⟨Hex.length_lower 4 c.value, Hex.number?_lower_of_lt (by omega)⟩
    have spelled := Spelling.number unit (Or.inl (by omega))
    rwa [CodePoint.ofNat_value] at spelled
  · rename_i visible
    exact .plain (by omega) (fun quote => unquoted (Or.inl quote))
      (fun backslash => unquoted (Or.inr backslash))

end Json

end UriTemplate
