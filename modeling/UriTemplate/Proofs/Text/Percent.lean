import Mathlib.Data.List.TakeWhile
import UriTemplate.Proofs.Text.Utf8
import UriTemplate.Text.Percent

/-!
What percent-encoding can write, and that decoding undoes it. An encoded text consists of
unreserved characters, the reserved characters that are allowed, and escapes with upper-case digits;
a text without surrogates is decoded to itself. Decoding makes something of every text, and no
surrogates.
-/

namespace UriTemplate

namespace Hex

def isUpperDigit (c : CodePoint) : Bool :=
  c.isDigit || (0x41 ≤ c.value && c.value ≤ 0x46)

theorem isUpperDigit_upperDigit : ∀ n < 16, isUpperDigit (upperDigit n) = true := by
  decide

theorem isUnreserved_of_isUpperDigit {c : CodePoint} (upper : isUpperDigit c = true) :
    Percent.isUnreserved c = true := by
  simp only [isUpperDigit, Bool.or_eq_true, Bool.and_eq_true, decide_eq_true_eq] at upper
  simp only [Percent.isUnreserved, CodePoint.isLetter, Bool.or_eq_true, Bool.and_eq_true,
    decide_eq_true_eq]
  rcases upper with digit | letter
  · exact Or.inl (Or.inl (Or.inl (Or.inl (Or.inr digit))))
  · refine Or.inl (Or.inl (Or.inl (Or.inl (Or.inl (Or.inl ?_)))))
    omega

theorem isUnreserved_upperDigit : ∀ n < 16, Percent.isUnreserved (upperDigit n) = true := by
  decide

theorem value?_upperDigit : ∀ n < 16, value? (upperDigit n) = some n := by
  decide

end Hex

namespace Percent

theorem mem_escape {byte : UInt8} {c : CodePoint} (member : c ∈ escape byte) :
    isUnreserved c = true ∨ c = .ofChar '%' := by
  have bound := byte.toNat_lt
  simp only [escape, List.mem_cons, List.not_mem_nil, or_false] at member
  rcases member with rfl | rfl | rfl
  · exact Or.inr rfl
  · exact Or.inl (Hex.isUnreserved_upperDigit _ (by omega))
  · exact Or.inl (Hex.isUnreserved_upperDigit _ (by omega))

theorem mem_encode {reserved t : Text} {c : CodePoint} (member : c ∈ encode reserved t) :
    isUnreserved c = true ∨ c = .ofChar '%' ∨ c ∈ reserved := by
  obtain ⟨d, _, written⟩ := List.mem_flatMap.mp member
  unfold encodePoint at written
  split at written
  · rename_i kept
    rw [List.mem_singleton.mp written]
    simp only [Bool.or_eq_true, List.contains_iff_mem] at kept
    rcases kept with unreserved | allowed
    · exact Or.inl unreserved
    · exact Or.inr (Or.inr allowed)
  · obtain ⟨byte, _, escaped⟩ := List.mem_flatMap.mp written
    rcases mem_escape escaped with unreserved | percent
    · exact Or.inl unreserved
    · exact Or.inr (Or.inl percent)

theorem encodePoint_ne_nil (reserved : Text) (c : CodePoint) : encodePoint reserved c ≠ [] := by
  unfold encodePoint
  split
  · simp
  · obtain ⟨byte, rest, shape⟩ := List.exists_cons_of_ne_nil (Utf8.encodePoint_ne_nil c)
    rw [shape]
    simp [escape]

theorem encode_eq_nil_iff {reserved t : Text} : encode reserved t = [] ↔ t = [] := by
  cases t with
  | nil => simp [encode]
  | cons c t => simp [encode, encodePoint_ne_nil]

/-- Made of plain characters and of escapes with two upper-case digits. -/
inductive WellEscaped (plain : CodePoint → Bool) : Text → Prop
  | nil : WellEscaped plain []
  | character {c : CodePoint} {rest : Text} :
      plain c = true → WellEscaped plain rest → WellEscaped plain (c :: rest)
  | triplet {high low : CodePoint} {rest : Text} :
      Hex.isUpperDigit high = true → Hex.isUpperDigit low = true → WellEscaped plain rest →
      WellEscaped plain (.ofChar '%' :: high :: low :: rest)

namespace WellEscaped

variable {plain : CodePoint → Bool} {s t : Text}

theorem singleton {c : CodePoint} (itself : plain c = true) : WellEscaped plain [c] :=
  .character itself .nil

theorem append (left : WellEscaped plain s) (right : WellEscaped plain t) :
    WellEscaped plain (s ++ t) := by
  induction left with
  | nil => exact right
  | character itself _ ih => exact .character itself ih
  | triplet high low _ ih => exact .triplet high low ih

theorem flatMap {α : Type} {f : α → Text} {as : List α} (each : ∀ a ∈ as, WellEscaped plain (f a)) :
    WellEscaped plain (as.flatMap f) := by
  induction as with
  | nil => exact .nil
  | cons a as ih =>
      rw [List.forall_mem_cons] at each
      exact each.1.append (ih each.2)

theorem mem (escaped : WellEscaped plain t) {c : CodePoint} (member : c ∈ t) :
    plain c = true ∨ c = .ofChar '%' ∨ Hex.isUpperDigit c = true := by
  induction escaped with
  | nil => exact absurd member List.not_mem_nil
  | character itself _ ih =>
      rcases List.mem_cons.mp member with rfl | later
      · exact Or.inl itself
      · exact ih later
  | triplet high low _ ih =>
      rcases List.mem_cons.mp member with rfl | inside
      · exact Or.inr (Or.inl rfl)
      · rcases List.mem_cons.mp inside with rfl | inside
        · exact Or.inr (Or.inr high)
        · rcases List.mem_cons.mp inside with rfl | later
          · exact Or.inr (Or.inr low)
          · exact ih later

theorem digits_behind (escaped : WellEscaped plain t) (reserved : plain (.ofChar '%') = false)
    {before after : Text} (divided : t = before ++ .ofChar '%' :: after) :
    ∃ high low rest, after = high :: low :: rest ∧ Hex.isUpperDigit high = true ∧
      Hex.isUpperDigit low = true := by
  induction escaped generalizing before with
  | nil => exact absurd divided.symm (by simp)
  | character itself _ ih =>
      cases before with
      | nil =>
          rw [(List.cons.inj divided).1, reserved] at itself
          exact absurd itself Bool.false_ne_true
      | cons _ before => exact ih (List.cons.inj divided).2
  | @triplet high low rest isHigh isLow _ ih =>
      have noDigit : Hex.isUpperDigit (.ofChar '%') = false := by decide
      -- The percent sign is the one in front, or it lies behind the digits, being no digit itself.
      match before with
      | [] => exact ⟨high, low, rest, (List.cons.inj divided).2.symm, isHigh, isLow⟩
      | [_] =>
          rw [(List.cons.inj (List.cons.inj divided).2).1, noDigit] at isHigh
          exact absurd isHigh Bool.false_ne_true
      | [_, _] =>
          rw [(List.cons.inj (List.cons.inj (List.cons.inj divided).2).2).1, noDigit] at isLow
          exact absurd isLow Bool.false_ne_true
      | _ :: _ :: _ :: before =>
          exact ih (List.cons.inj (List.cons.inj (List.cons.inj divided).2).2).2

end WellEscaped

theorem wellEscaped_escape (plain : CodePoint → Bool) (byte : UInt8) :
    WellEscaped plain (escape byte) := by
  have bound := byte.toNat_lt
  refine .triplet ?_ ?_ .nil
  · exact Hex.isUpperDigit_upperDigit _ (by omega)
  · exact Hex.isUpperDigit_upperDigit _ (by omega)

theorem wellEscaped_encode {plain : CodePoint → Bool} {reserved : Text}
    (unreservedPlain : ∀ c, isUnreserved c = true → plain c = true)
    (reservedPlain : ∀ c ∈ reserved, plain c = true) (t : Text) :
    WellEscaped plain (encode reserved t) := by
  refine .flatMap fun c _ => ?_
  unfold encodePoint
  split
  · rename_i kept
    simp only [Bool.or_eq_true, List.contains_iff_mem] at kept
    exact .singleton (kept.elim (unreservedPlain c) (reservedPlain c))
  · exact .flatMap fun byte _ => wellEscaped_escape plain byte

theorem escaped?_of_ne {c : CodePoint} (other : c ≠ .ofChar '%') (high low : CodePoint) :
    escaped? c high low = none := by
  have refused : guard (c = .ofChar '%') = (none : Option Unit) := if_neg other
  unfold escaped?
  rw [refused]
  rfl

theorem escaped?_upperDigit (byte : UInt8) :
    escaped? '%' (Hex.upperDigit (byte.toNat / 16)) (Hex.upperDigit (byte.toNat % 16)) =
      some byte := by
  have bound := byte.toNat_lt
  have whole : byte.toNat / 16 * 16 + byte.toNat % 16 = byte.toNat := by omega
  unfold escaped?
  rw [Hex.value?_upperDigit _ (by omega), Hex.value?_upperDigit _ (by omega)]
  change some (UInt8.ofNat (byte.toNat / 16 * 16 + byte.toNat % 16)) = some byte
  rw [whole, UInt8.ofNat_toNat]

theorem octets_escape (byte : UInt8) (rest : Text) :
    octets (escape byte ++ rest) = byte :: octets rest := by
  simp only [escape, List.cons_append, List.nil_append, octets, escaped?_upperDigit]

theorem octets_cons {c : CodePoint} (other : c ≠ .ofChar '%') (rest : Text) :
    octets (c :: rest) = .ofNat c.value :: octets rest := by
  match rest with
  | [] => rfl
  | [d] => rfl
  | high :: low :: rest => rw [octets, escaped?_of_ne other]

theorem octets_flatMap_escape (bytes : List UInt8) (rest : Text) :
    octets (bytes.flatMap escape ++ rest) = bytes ++ octets rest := by
  induction bytes with
  | nil => rfl
  | cons byte bytes ih =>
      rw [List.flatMap_cons, List.append_assoc, octets_escape, ih]
      rfl

/-- Reserved characters that may stand for themselves: a percent sign could begin an escape. -/
def Transparent (reserved : Text) : Prop := ∀ c ∈ reserved, c.isAscii = true ∧ c ≠ .ofChar '%'

theorem range_of_unreserved {c : CodePoint} (unreserved : isUnreserved c = true) :
    0x20 < c.value ∧ c.value < 0x7f := by
  simp only [isUnreserved, CodePoint.isLetter, CodePoint.isDigit, Bool.or_eq_true, Bool.and_eq_true,
    decide_eq_true_eq] at unreserved
  rcases unreserved with ((((letter | digit) | rfl) | rfl) | rfl) | rfl
  · omega
  · omega
  · decide
  · decide
  · decide
  · decide

theorem transparent_of_unreserved {c : CodePoint} (unreserved : isUnreserved c = true) :
    c.isAscii = true ∧ c ≠ .ofChar '%' := by
  constructor
  · have range := range_of_unreserved unreserved
    simp only [CodePoint.isAscii, decide_eq_true_eq]
    omega
  · rintro rfl
    exact absurd unreserved (by decide)

theorem octets_encodePoint {reserved : Text} (transparent : Transparent reserved) (c : CodePoint)
    (rest : Text) : octets (encodePoint reserved c ++ rest) = Utf8.encodePoint c ++ octets rest := by
  unfold encodePoint
  split
  · rename_i kept
    have alone : c.isAscii = true ∧ c ≠ .ofChar '%' := by
      simp only [Bool.or_eq_true, List.contains_iff_mem] at kept
      rcases kept with unreserved | allowed
      · exact transparent_of_unreserved unreserved
      · exact transparent c allowed
    have ascii : c.value < 0x80 := by simpa [CodePoint.isAscii] using alone.1
    rw [List.singleton_append, octets_cons alone.2]
    simp [Utf8.encodePoint, ascii]
  · exact octets_flatMap_escape _ rest

theorem octets_encode_append {reserved : Text} (transparent : Transparent reserved) (t rest : Text) :
    octets (encode reserved t ++ rest) = Utf8.encode t ++ octets rest := by
  induction t with
  | nil => rfl
  | cons c t ih =>
      have first := octets_encodePoint transparent c (encode reserved t ++ rest)
      rw [ih, ← List.append_assoc, ← List.append_assoc] at first
      exact first

theorem octets_encode {reserved : Text} (transparent : Transparent reserved) (t : Text) :
    octets (encode reserved t) = Utf8.encode t := by
  have whole := octets_encode_append transparent t []
  rw [List.append_nil] at whole
  exact whole.trans (List.append_nil _)

theorem isAscii_of_mem_encode {reserved t : Text} (transparent : Transparent reserved)
    {c : CodePoint} (member : c ∈ encode reserved t) : c.isAscii = true := by
  rcases mem_encode member with unreserved | rfl | allowed
  · exact (transparent_of_unreserved unreserved).1
  · decide
  · exact (transparent c allowed).1

theorem decode_of_ascii {t : Text} (ascii : ∀ c ∈ t, c.isAscii = true) :
    decode t = Utf8.decodeLossy (octets t) := by
  cases t with
  | nil => simp [decode, octets, Utf8.decodeLossy, Utf8.scan]
  | cons c rest =>
      have whole : rest.takeWhile CodePoint.isAscii = rest :=
        List.takeWhile_eq_self_iff.mpr fun d member => ascii d (List.mem_cons_of_mem c member)
      have nothing : rest.dropWhile CodePoint.isAscii = [] :=
        List.dropWhile_eq_nil_iff.mpr fun d member => ascii d (List.mem_cons_of_mem c member)
      rw [decode, if_pos (ascii c List.mem_cons_self), whole, nothing, decode, List.append_nil]

theorem decode_encode {reserved t : Text} (transparent : Transparent reserved)
    (scalars : t.hasSurrogate = false) : decode (encode reserved t) = t := by
  rw [decode_of_ascii fun c member => isAscii_of_mem_encode transparent member,
    octets_encode transparent, Utf8.decodeLossy_encode scalars]

theorem octets_eq_nil_iff {t : Text} : octets t = [] ↔ t = [] := by
  constructor
  · intro nothing
    match t with
    | [] => rfl
    | [c] => exact absurd nothing (List.cons_ne_nil _ _)
    | [c, d] => exact absurd nothing (List.cons_ne_nil _ _)
    | percent :: high :: low :: rest =>
        rw [octets] at nothing
        split at nothing
        · exact absurd nothing (List.cons_ne_nil _ _)
        · exact absurd nothing (List.cons_ne_nil _ _)
  · rintro rfl
    rfl

theorem decode_eq_nil_iff {t : Text} : decode t = [] ↔ t = [] := by
  constructor
  · intro nothing
    cases t with
    | nil => rfl
    | cons c rest =>
        rw [decode] at nothing
        split at nothing
        · have run := Utf8.decodeLossy_eq_nil_iff.mp (List.append_eq_nil_iff.mp nothing).1
          exact absurd (octets_eq_nil_iff.mp run) (List.cons_ne_nil _ _)
        · exact absurd nothing (List.cons_ne_nil _ _)
  · rintro rfl
    simp [decode]

theorem hasSurrogate_decode {t : Text} (scalars : t.hasSurrogate = false) :
    (decode t).hasSurrogate = false := by
  fun_induction decode t with
  | case1 => rfl
  | case2 c rest ascii ih =>
      rw [Text.hasSurrogate_append_eq_false_iff]
      refine ⟨Utf8.hasSurrogate_decodeLossy _, ih ?_⟩
      rw [Text.hasSurrogate_eq_false_iff] at scalars ⊢
      intro d member
      have suffix := (List.dropWhile_sublist CodePoint.isAscii (l := rest)).mem member
      exact scalars d (List.mem_cons_of_mem c suffix)
  | case3 c rest other ih =>
      rw [Text.hasSurrogate_cons_eq_false_iff] at scalars ⊢
      exact ⟨scalars.1, ih scalars.2⟩

end Percent

end UriTemplate
