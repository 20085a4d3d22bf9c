import UriTemplate.Text.Utf8

/-!
UTF-8 as a code. The first octet of a code point says how many there are and the octets together
which one it is, so encoding is injective, surrogates included. Octets are read as a text, with no
part of them ill-formed, when they are the encoding of that text and it has no surrogates, and then
only. Octets that are no such encoding are read as something all the same, without surrogates.
-/

namespace UriTemplate.Utf8

theorem toNat_ofNat_octet {n : Nat} (small : n < 0x100) : (UInt8.ofNat n).toNat = n :=
  UInt8.toNat_ofNat_of_lt' small

/-! Encoding: the four forms, and what tells them apart. -/

theorem encodePoint_one {c : CodePoint} (small : c.value < 0x80) :
    encodePoint c = [.ofNat c.value] :=
  if_pos small

theorem encodePoint_two {c : CodePoint} (low : 0x80 ≤ c.value) (high : c.value < 0x800) :
    encodePoint c = [.ofNat (0xc0 + c.value / 0x40), .ofNat (0x80 + c.value % 0x40)] := by
  simp only [encodePoint]
  rw [if_neg (by omega), if_pos high]

theorem encodePoint_three {c : CodePoint} (low : 0x800 ≤ c.value) (high : c.value < 0x10000) :
    encodePoint c = [.ofNat (0xe0 + c.value / 0x1000), .ofNat (0x80 + c.value / 0x40 % 0x40),
      .ofNat (0x80 + c.value % 0x40)] := by
  simp only [encodePoint]
  rw [if_neg (by omega), if_neg (by omega), if_pos high]

theorem encodePoint_four {c : CodePoint} (low : 0x10000 ≤ c.value) :
    encodePoint c = [.ofNat (0xf0 + c.value / 0x40000), .ofNat (0x80 + c.value / 0x1000 % 0x40),
      .ofNat (0x80 + c.value / 0x40 % 0x40), .ofNat (0x80 + c.value % 0x40)] := by
  simp only [encodePoint]
  rw [if_neg (by omega), if_neg (by omega), if_neg (by omega)]

theorem forms (c : CodePoint) :
    c.value < 0x80 ∨ (0x80 ≤ c.value ∧ c.value < 0x800) ∨
      (0x800 ≤ c.value ∧ c.value < 0x10000) ∨ (0x10000 ≤ c.value ∧ c.value < 0x110000) := by
  have bound := c.value_lt
  omega

def pointNumber : List UInt8 → Nat
  | [a] => a.toNat
  | [a, b] => (a.toNat - 0xc0) * 0x40 + (b.toNat - 0x80)
  | [a, b, d] => ((a.toNat - 0xe0) * 0x40 + (b.toNat - 0x80)) * 0x40 + (d.toNat - 0x80)
  | [a, b, d, e] =>
    (((a.toNat - 0xf0) * 0x40 + (b.toNat - 0x80)) * 0x40 + (d.toNat - 0x80)) * 0x40 +
      (e.toNat - 0x80)
  | _ => 0

theorem pointNumber_two (a b : UInt8) :
    pointNumber [a, b] = (a.toNat - 0xc0) * 0x40 + (b.toNat - 0x80) := rfl

theorem pointNumber_three (a b d : UInt8) :
    pointNumber [a, b, d] =
      ((a.toNat - 0xe0) * 0x40 + (b.toNat - 0x80)) * 0x40 + (d.toNat - 0x80) := rfl

theorem pointNumber_four (a b d e : UInt8) :
    pointNumber [a, b, d, e] =
      (((a.toNat - 0xf0) * 0x40 + (b.toNat - 0x80)) * 0x40 + (d.toNat - 0x80)) * 0x40 +
        (e.toNat - 0x80) := rfl

theorem pointNumber_encodePoint (c : CodePoint) : pointNumber (encodePoint c) = c.value := by
  rcases forms c with one | ⟨low, high⟩ | ⟨low, high⟩ | ⟨low, high⟩
  · rw [encodePoint_one one]
    exact toNat_ofNat_octet (by omega)
  · rw [encodePoint_two low high, pointNumber_two, toNat_ofNat_octet (by omega),
      toNat_ofNat_octet (by omega)]
    omega
  · rw [encodePoint_three low high, pointNumber_three, toNat_ofNat_octet (by omega),
      toNat_ofNat_octet (by omega), toNat_ofNat_octet (by omega)]
    omega
  · rw [encodePoint_four low, pointNumber_four, toNat_ofNat_octet (by omega),
      toNat_ofNat_octet (by omega), toNat_ofNat_octet (by omega), toNat_ofNat_octet (by omega)]
    omega

def formLength (first : UInt8) : Nat :=
  if first.toNat < 0x80 then 1
  else if first.toNat < 0xe0 then 2
  else if first.toNat < 0xf0 then 3
  else 4

theorem exists_encodePoint_eq_cons (c : CodePoint) :
    ∃ first others, encodePoint c = first :: others ∧ others.length + 1 = formLength first := by
  rcases forms c with one | ⟨low, high⟩ | ⟨low, high⟩ | ⟨low, high⟩
  · refine ⟨_, _, encodePoint_one one, ?_⟩
    rw [formLength, toNat_ofNat_octet (by omega), if_pos one]
    rfl
  · refine ⟨_, _, encodePoint_two low high, ?_⟩
    rw [formLength, toNat_ofNat_octet (by omega), if_neg (by omega), if_pos (by omega)]
    rfl
  · refine ⟨_, _, encodePoint_three low high, ?_⟩
    rw [formLength, toNat_ofNat_octet (by omega), if_neg (by omega), if_neg (by omega),
      if_pos (by omega)]
    rfl
  · refine ⟨_, _, encodePoint_four low, ?_⟩
    rw [formLength, toNat_ofNat_octet (by omega), if_neg (by omega), if_neg (by omega),
      if_neg (by omega)]
    rfl

theorem encodePoint_ne_nil (c : CodePoint) : encodePoint c ≠ [] := by
  obtain ⟨first, others, shape, _⟩ := exists_encodePoint_eq_cons c
  rw [shape]
  exact List.cons_ne_nil first others

theorem encodePoint_append_inj {c d : CodePoint} {left right : List UInt8}
    (same : encodePoint c ++ left = encodePoint d ++ right) : c = d ∧ left = right := by
  obtain ⟨first, others, shape, length⟩ := exists_encodePoint_eq_cons c
  obtain ⟨second, more, otherShape, otherLength⟩ := exists_encodePoint_eq_cons d
  -- The two begin with one octet, so they are equally long and nothing of either is in the rests.
  have lengths : (encodePoint c).length = (encodePoint d).length := by
    have heads : first = second := by
      rw [shape, otherShape] at same
      exact (List.cons.inj same).1
    rw [shape, otherShape, List.length_cons, List.length_cons, length, otherLength, heads]
  obtain ⟨points, rests⟩ := List.append_inj same lengths
  have values := congrArg pointNumber points
  rw [pointNumber_encodePoint, pointNumber_encodePoint] at values
  rw [← CodePoint.ofNat_value c, values, CodePoint.ofNat_value]
  exact ⟨rfl, rests⟩

theorem encode_injective {t u : Text} (same : encode t = encode u) : t = u := by
  induction t generalizing u with
  | nil =>
      cases u with
      | nil => rfl
      | cons d u => exact absurd (List.append_eq_nil_iff.mp same.symm).1 (encodePoint_ne_nil d)
  | cons c t ih =>
      cases u with
      | nil => exact absurd (List.append_eq_nil_iff.mp same).1 (encodePoint_ne_nil c)
      | cons d u =>
          obtain ⟨rfl, rest⟩ := encodePoint_append_inj same
          rw [ih rest]

/-! Decoding: what was encoded is found again, whatever octets follow it. -/

theorem step_none (byte : UInt8) : step none byte = start byte := rfl

theorem scan_cons (state : Option Unfinished) (byte : UInt8) (rest : List UInt8) :
    scan state (byte :: rest) = (step state byte).1 ++ scan (step state byte).2 rest := by
  cases state <;> rfl

theorem start_one (n : Nat) (small : n < 0x80) : start (.ofNat n) = ([some (.ofNat n)], none) := by
  simp only [start, toNat_ofNat_octet (show n < 0x100 by omega)]
  rw [if_pos small]

theorem start_two (n : Nat) (low : 2 ≤ n) (high : n < 0x20) :
    start (.ofNat (0xc0 + n)) = ([], some ⟨n, 1, 0x80, 0xbf⟩) := by
  simp only [start, toNat_ofNat_octet (show 0xc0 + n < 0x100 by omega)]
  rw [if_neg (by omega), if_neg (by omega), if_pos (by omega), Nat.add_sub_cancel_left]

theorem start_three (n : Nat) (high : n < 0x10) :
    start (.ofNat (0xe0 + n)) =
      ([], some ⟨n, 2, if n = 0 then 0xa0 else 0x80, if n = 0xd then 0x9f else 0xbf⟩) := by
  have first : 0xe0 + n = 0xe0 ↔ n = 0 := by omega
  have last : 0xe0 + n = 0xed ↔ n = 0xd := by omega
  simp only [start, toNat_ofNat_octet (show 0xe0 + n < 0x100 by omega), first, last]
  rw [if_neg (by omega), if_neg (by omega), if_neg (by omega), if_pos (by omega),
    Nat.add_sub_cancel_left]

theorem start_four (n : Nat) (high : n < 5) :
    start (.ofNat (0xf0 + n)) =
      ([], some ⟨n, 3, if n = 0 then 0x90 else 0x80, if n = 4 then 0x8f else 0xbf⟩) := by
  have first : 0xf0 + n = 0xf0 ↔ n = 0 := by omega
  have last : 0xf0 + n = 0xf4 ↔ n = 4 := by omega
  simp only [start, toNat_ofNat_octet (show 0xf0 + n < 0x100 by omega), first, last]
  rw [if_neg (by omega), if_neg (by omega), if_neg (by omega), if_neg (by omega), if_pos (by omega),
    Nat.add_sub_cancel_left]

theorem step_last (begun : Unfinished) (n : Nat) (small : n < 0x40) (due : begun.due = 1)
    (range : begun.low ≤ 0x80 + n ∧ 0x80 + n ≤ begun.high) :
    step (some begun) (.ofNat (0x80 + n)) = ([some (.ofNat (begun.bits * 0x40 + n))], none) := by
  simp only [step, toNat_ofNat_octet (show 0x80 + n < 0x100 by omega), Nat.add_sub_cancel_left]
  rw [if_pos range, if_pos due]

theorem step_more (begun : Unfinished) (n : Nat) (small : n < 0x40) (due : begun.due ≠ 1)
    (range : begun.low ≤ 0x80 + n ∧ 0x80 + n ≤ begun.high) :
    step (some begun) (.ofNat (0x80 + n)) =
      ([], some ⟨begun.bits * 0x40 + n, begun.due - 1, 0x80, 0xbf⟩) := by
  simp only [step, toNat_ofNat_octet (show 0x80 + n < 0x100 by omega), Nat.add_sub_cancel_left]
  rw [if_pos range, if_neg due]

theorem scan_two {a b : Nat} (low : 2 ≤ a) (high : a < 0x20) (last : b < 0x40)
    (rest : List UInt8) :
    scan none (.ofNat (0xc0 + a) :: .ofNat (0x80 + b) :: rest) =
      some (.ofNat (a * 0x40 + b)) :: scan none rest := by
  have second := step_last ⟨a, 1, 0x80, 0xbf⟩ b last rfl (by constructor <;> dsimp only <;> omega)
  simp only [scan_cons, step_none, start_two a low high, second, List.nil_append, List.cons_append]

theorem scan_three {a b d : Nat} (high : a < 0x10) (middle : b < 0x40) (last : d < 0x40)
    (shortest : a = 0 → 0x20 ≤ b) (scalar : a = 0xd → b < 0x20) (rest : List UInt8) :
    scan none (.ofNat (0xe0 + a) :: .ofNat (0x80 + b) :: .ofNat (0x80 + d) :: rest) =
      some (.ofNat ((a * 0x40 + b) * 0x40 + d)) :: scan none rest := by
  have second := step_more ⟨a, 2, if a = 0 then 0xa0 else 0x80, if a = 0xd then 0x9f else 0xbf⟩ b
    middle (by simp) (by constructor <;> dsimp only <;> split <;> omega)
  have third := step_last ⟨a * 0x40 + b, 2 - 1, 0x80, 0xbf⟩ d last rfl
    (by constructor <;> dsimp only <;> omega)
  simp only [scan_cons, step_none, start_three a high, second, third, List.nil_append,
    List.cons_append]

theorem scan_four {a b d e : Nat} (high : a < 5) (middle : b < 0x40) (later : d < 0x40)
    (last : e < 0x40) (shortest : a = 0 → 0x10 ≤ b) (bounded : a = 4 → b < 0x10)
    (rest : List UInt8) :
    scan none (.ofNat (0xf0 + a) :: .ofNat (0x80 + b) :: .ofNat (0x80 + d) :: .ofNat (0x80 + e) ::
        rest) =
      some (.ofNat (((a * 0x40 + b) * 0x40 + d) * 0x40 + e)) :: scan none rest := by
  have second := step_more ⟨a, 3, if a = 0 then 0x90 else 0x80, if a = 4 then 0x8f else 0xbf⟩ b
    middle (by simp) (by constructor <;> dsimp only <;> split <;> omega)
  have third := step_more ⟨a * 0x40 + b, 3 - 1, 0x80, 0xbf⟩ d later (by simp)
    (by constructor <;> dsimp only <;> omega)
  have fourth := step_last ⟨(a * 0x40 + b) * 0x40 + d, 3 - 1 - 1, 0x80, 0xbf⟩ e last rfl
    (by constructor <;> dsimp only <;> omega)
  simp only [scan_cons, step_none, start_four a high, second, third, fourth, List.nil_append,
    List.cons_append]

theorem scan_encodePoint {c : CodePoint} (scalar : c.isSurrogate = false) (rest : List UInt8) :
    scan none (encodePoint c ++ rest) = some c :: scan none rest := by
  have outside := CodePoint.isSurrogate_eq_false_iff.mp scalar
  have whole {n : Nat} (same : n = c.value) : CodePoint.ofNat n = c := by
    rw [same, CodePoint.ofNat_value]
  rcases forms c with one | ⟨low, high⟩ | ⟨low, high⟩ | ⟨low, high⟩
  · rw [encodePoint_one one, List.singleton_append, scan_cons, step_none, start_one c.value one,
      whole rfl]
    rfl
  · rw [encodePoint_two low high]
    simp only [List.cons_append, List.nil_append]
    rw [scan_two (by omega) (by omega) (by omega), whole (by omega)]
  · rw [encodePoint_three low high]
    simp only [List.cons_append, List.nil_append]
    rw [scan_three (by omega) (by omega) (by omega) (by omega) (by omega), whole (by omega)]
  · rw [encodePoint_four low]
    simp only [List.cons_append, List.nil_append]
    rw [scan_four (by omega) (by omega) (by omega) (by omega) (by omega) (by omega),
      whole (by omega)]

theorem scan_encode {t : Text} (scalars : t.hasSurrogate = false) :
    scan none (encode t) = t.map some := by
  induction t with
  | nil => rfl
  | cons c t ih =>
      rw [Text.hasSurrogate_cons_eq_false_iff] at scalars
      have step := scan_encodePoint scalars.1 (encode t)
      rw [ih scalars.2] at step
      exact step

theorem decodeLossy_encode {t : Text} (scalars : t.hasSurrogate = false) :
    decodeLossy (encode t) = t := by
  rw [decodeLossy, scan_encode scalars, List.map_map]
  exact List.map_id t

/-! Strict decoding: octets with no ill-formed part begin with a code point in one of its forms. -/

section Strict

variable {bits low high : Nat} {bytes : List UInt8} {t : Text}

theorem none_cons_ne_map_some {others : List (Option CodePoint)} : none :: others ≠ t.map some := by
  cases t <;> simp

theorem start_refused {byte : UInt8}
    (refused : (0x80 ≤ byte.toNat ∧ byte.toNat < 0xc2) ∨ 0xf5 ≤ byte.toNat) :
    start byte = ([none], none) := by
  simp only [start]
  rcases refused with middle | high
  · rw [if_neg (by omega), if_pos middle.2]
  · rw [if_neg (by omega), if_neg (by omega), if_neg (by omega), if_neg (by omega),
      if_neg (by omega)]

theorem exists_of_scan_some {begun : Unfinished} (tail : 0x80 ≤ begun.low ∧ begun.high ≤ 0xbf)
    (read : scan (some begun) bytes = t.map some) :
    ∃ n rest, bytes = .ofNat (0x80 + n) :: rest ∧ n < 0x40 ∧
      (begun.low ≤ 0x80 + n ∧ 0x80 + n ≤ begun.high) := by
  cases bytes with
  | nil => exact absurd read none_cons_ne_map_some
  | cons byte rest =>
      by_cases range : begun.low ≤ byte.toNat ∧ byte.toNat ≤ begun.high
      · have above : 0x80 + (byte.toNat - 0x80) = byte.toNat := by omega
        refine ⟨byte.toNat - 0x80, rest, ?_, by omega, ?_⟩
        · rw [above, UInt8.ofNat_toNat]
        · rwa [above]
      · rw [scan_cons] at read
        simp only [step] at read
        rw [if_neg range] at read
        exact absurd read none_cons_ne_map_some

theorem exists_of_scan_last (tail : 0x80 ≤ low ∧ high ≤ 0xbf)
    (read : scan (some ⟨bits, 1, low, high⟩) bytes = t.map some) :
    ∃ n rest found, bytes = .ofNat (0x80 + n) :: rest ∧ n < 0x40 ∧
      (low ≤ 0x80 + n ∧ 0x80 + n ≤ high) ∧ t = .ofNat (bits * 0x40 + n) :: found ∧
      scan none rest = found.map some := by
  obtain ⟨n, rest, rfl, small, range⟩ := exists_of_scan_some tail read
  rw [scan_cons, step_last ⟨bits, 1, low, high⟩ n small rfl range] at read
  cases t with
  | nil => exact absurd read (List.cons_ne_nil _ _)
  | cons c found =>
      obtain ⟨first, others⟩ := List.cons.inj read
      exact ⟨n, rest, found, rfl, small, range, by rw [Option.some.inj first], others⟩

theorem exists_of_scan_more {due : Nat} (several : due ≠ 1) (tail : 0x80 ≤ low ∧ high ≤ 0xbf)
    (read : scan (some ⟨bits, due, low, high⟩) bytes = t.map some) :
    ∃ n rest, bytes = .ofNat (0x80 + n) :: rest ∧ n < 0x40 ∧
      (low ≤ 0x80 + n ∧ 0x80 + n ≤ high) ∧
      scan (some ⟨bits * 0x40 + n, due - 1, 0x80, 0xbf⟩) rest = t.map some := by
  obtain ⟨n, rest, rfl, small, range⟩ := exists_of_scan_some tail read
  rw [scan_cons, step_more ⟨bits, due, low, high⟩ n small several range] at read
  exact ⟨n, rest, rfl, small, range, read⟩

/-- The octets begin with those of the text's first code point, and the rest is read as the rest. -/
def Begins (bytes : List UInt8) (t : Text) : Prop :=
  ∃ c rest found, bytes = encodePoint c ++ rest ∧ c.isSurrogate = false ∧ t = c :: found ∧
    scan none rest = found.map some

variable {a : Nat} {others : List UInt8}

theorem begins_one (small : a < 0x80) (read : scan none (.ofNat a :: others) = t.map some) :
    Begins (.ofNat a :: others) t := by
  rw [scan_cons, step_none, start_one a small] at read
  cases t with
  | nil => exact absurd read (List.cons_ne_nil _ _)
  | cons c found =>
      obtain ⟨first, rest⟩ := List.cons.inj read
      have value : c.value = a := by
        rw [← Option.some.inj first, CodePoint.value_ofNat (by omega)]
      refine ⟨c, others, found, ?_, CodePoint.isSurrogate_eq_false_iff.mpr (by omega), rfl, rest⟩
      rw [encodePoint_one (by omega), value]
      rfl

theorem begins_two (low : 2 ≤ a) (high : a < 0x20)
    (read : scan none (.ofNat (0xc0 + a) :: others) = t.map some) :
    Begins (.ofNat (0xc0 + a) :: others) t := by
  rw [scan_cons, step_none, start_two a low high] at read
  obtain ⟨b, rest, found, rfl, small, -, rfl, remaining⟩ := exists_of_scan_last (by omega) read
  have value := CodePoint.value_ofNat (show a * 0x40 + b < 0x110000 by omega)
  refine ⟨_, rest, found, ?_, CodePoint.isSurrogate_eq_false_iff.mpr (by omega), rfl, remaining⟩
  have lead : (a * 0x40 + b) / 0x40 = a := by omega
  have last : (a * 0x40 + b) % 0x40 = b := by omega
  rw [encodePoint_two (by omega) (by omega), value, lead, last]
  rfl

theorem begins_three (high : a < 0x10)
    (read : scan none (.ofNat (0xe0 + a) :: others) = t.map some) :
    Begins (.ofNat (0xe0 + a) :: others) t := by
  rw [scan_cons, step_none, start_three a high] at read
  obtain ⟨b, rest, rfl, middle, range, read⟩ :=
    exists_of_scan_more (by omega) (by constructor <;> split <;> omega) read
  obtain ⟨d, rest, found, rfl, small, -, rfl, remaining⟩ := exists_of_scan_last (by omega) read
  have value := CodePoint.value_ofNat (show (a * 0x40 + b) * 0x40 + d < 0x110000 by omega)
  have shortest : a = 0 → 0x20 ≤ b := by
    intro zero
    rw [if_pos zero] at range
    omega
  have scalar : a = 0xd → b < 0x20 := by
    intro surrogates
    rw [if_pos surrogates] at range
    omega
  refine ⟨_, rest, found, ?_, CodePoint.isSurrogate_eq_false_iff.mpr (by omega), rfl, remaining⟩
  have lead : ((a * 0x40 + b) * 0x40 + d) / 0x1000 = a := by omega
  have second : ((a * 0x40 + b) * 0x40 + d) / 0x40 % 0x40 = b := by omega
  have last : ((a * 0x40 + b) * 0x40 + d) % 0x40 = d := by omega
  rw [encodePoint_three (by omega) (by omega), value, lead, second, last]
  rfl

theorem begins_four (high : a < 5)
    (read : scan none (.ofNat (0xf0 + a) :: others) = t.map some) :
    Begins (.ofNat (0xf0 + a) :: others) t := by
  rw [scan_cons, step_none, start_four a high] at read
  obtain ⟨b, rest, rfl, middle, range, read⟩ :=
    exists_of_scan_more (by omega) (by constructor <;> split <;> omega) read
  obtain ⟨d, rest, rfl, later, -, read⟩ := exists_of_scan_more (by omega) (by omega) read
  obtain ⟨e, rest, found, rfl, small, -, rfl, remaining⟩ := exists_of_scan_last (by omega) read
  have shortest : a = 0 → 0x10 ≤ b := by
    intro zero
    rw [if_pos zero] at range
    omega
  have bounded : a = 4 → b < 0x10 := by
    intro largest
    rw [if_pos largest] at range
    omega
  have value := CodePoint.value_ofNat
    (show ((a * 0x40 + b) * 0x40 + d) * 0x40 + e < 0x110000 by omega)
  refine ⟨_, rest, found, ?_, CodePoint.isSurrogate_eq_false_iff.mpr (by omega), rfl, remaining⟩
  have lead : (((a * 0x40 + b) * 0x40 + d) * 0x40 + e) / 0x40000 = a := by omega
  have second : (((a * 0x40 + b) * 0x40 + d) * 0x40 + e) / 0x1000 % 0x40 = b := by omega
  have third : (((a * 0x40 + b) * 0x40 + d) * 0x40 + e) / 0x40 % 0x40 = d := by omega
  have last : (((a * 0x40 + b) * 0x40 + d) * 0x40 + e) % 0x40 = e := by omega
  rw [encodePoint_four (by omega), value, lead, second, third, last]
  rfl

theorem begins_of_scan {byte : UInt8} (read : scan none (byte :: others) = t.map some) :
    Begins (byte :: others) t := by
  have shape (base : Nat) (above : base ≤ byte.toNat) :
      byte = .ofNat (base + (byte.toNat - base)) := by
    rw [Nat.add_sub_cancel' above, UInt8.ofNat_toNat]
  by_cases refused : (0x80 ≤ byte.toNat ∧ byte.toNat < 0xc2) ∨ 0xf5 ≤ byte.toNat
  · rw [scan_cons, step_none, start_refused refused] at read
    exact absurd read none_cons_ne_map_some
  · by_cases one : byte.toNat < 0x80
    · rw [← UInt8.ofNat_toNat (x := byte)] at read ⊢
      exact begins_one one read
    · by_cases two : byte.toNat < 0xe0
      · rw [shape 0xc0 (by omega)] at read ⊢
        exact begins_two (by omega) (by omega) read
      · by_cases three : byte.toNat < 0xf0
        · rw [shape 0xe0 (by omega)] at read ⊢
          exact begins_three (by omega) read
        · rw [shape 0xf0 (by omega)] at read ⊢
          exact begins_four (by omega) read

theorem scan_eq_map_some_iff :
    scan none bytes = t.map some ↔ bytes = encode t ∧ t.hasSurrogate = false := by
  constructor
  · intro read
    induction t generalizing bytes with
    | nil =>
        cases bytes with
        | nil => exact ⟨rfl, rfl⟩
        | cons byte others =>
            obtain ⟨c, rest, found, _, _, absent, _⟩ := begins_of_scan read
            exact absurd absent.symm (List.cons_ne_nil c found)
    | cons c t ih =>
        cases bytes with
        | nil => exact absurd read.symm (List.cons_ne_nil _ _)
        | cons byte others =>
            obtain ⟨d, rest, found, octets, scalar, same, remaining⟩ := begins_of_scan read
            obtain ⟨rfl, rfl⟩ := List.cons.inj same
            obtain ⟨rfl, scalars⟩ := ih remaining
            exact ⟨octets, Text.hasSurrogate_cons_eq_false_iff.mpr ⟨scalar, scalars⟩⟩
  · rintro ⟨rfl, scalars⟩
    exact scan_encode scalars

theorem mapM_id_eq_some_iff {found : List (Option CodePoint)} :
    found.mapM id = some t ↔ found = t.map some := by
  induction found generalizing t with
  | nil => cases t <;> simp
  | cons result found ih =>
      rw [List.mapM_cons]
      cases result with
      | none => cases t <;> simp
      | some c =>
          cases t with
          | nil => simp [Option.bind_eq_some_iff]
          | cons d t => simpa [Option.bind_eq_some_iff, ih] using and_comm

theorem decode?_eq_some_iff :
    decode? bytes = some t ↔ bytes = encode t ∧ t.hasSurrogate = false := by
  rw [decode?, mapM_id_eq_some_iff, scan_eq_map_some_iff]

end Strict

/-! Lossy decoding: whatever the octets are, something is found in them, and never a surrogate. -/

inductive Unfinished.Scalar : Unfinished → Prop
  | last {bits low high} :
      (∀ n, low ≤ n → n ≤ high →
        (CodePoint.ofNat (bits * 0x40 + (n - 0x80))).isSurrogate = false) →
      Scalar ⟨bits, 1, low, high⟩
  | more {bits due low high} : due ≠ 1 →
      (∀ n, low ≤ n → n ≤ high → Scalar ⟨bits * 0x40 + (n - 0x80), due - 1, 0x80, 0xbf⟩) →
      Scalar ⟨bits, due, low, high⟩

structure Progress.Scalar (progress : Progress) : Prop where
  found : ∀ c, some c ∈ progress.1 → c.isSurrogate = false
  begun : ∀ begun ∈ progress.2, begun.Scalar

theorem isSurrogate_ofNat {n : Nat} (outside : n < 0xd800 ∨ 0xdfff < n) :
    (CodePoint.ofNat n).isSurrogate = false := by
  rw [CodePoint.isSurrogate_eq_false_iff]
  unfold CodePoint.ofNat
  split
  · exact outside
  · exact Or.inr (by decide)

theorem scalar_refused : Progress.Scalar ([none], none) := by
  constructor <;> simp

theorem scalar_begun {begun : Unfinished} (scalar : begun.Scalar) :
    Progress.Scalar ([], some begun) := by
  constructor
  · simp
  · intro other same
    rwa [← Option.some.inj same]

theorem scalar_start (byte : UInt8) : (start byte).Scalar := by
  simp only [start]
  split
  · rename_i small
    refine ⟨fun c found => ?_, by simp⟩
    rw [Option.some.inj (List.mem_singleton.mp found)]
    exact isSurrogate_ofNat (by omega)
  split
  · exact scalar_refused
  split
  · refine scalar_begun (.last fun n low high => isSurrogate_ofNat ?_)
    omega
  split
  · -- Only the second octet decides: after the lead of the surrogates it is kept below them.
    refine scalar_begun (.more (by decide) fun n low high => .last fun m first last => ?_)
    apply isSurrogate_ofNat
    split at low <;> split at high <;> omega
  split
  · refine scalar_begun (.more (by decide) fun n low high => .more (by decide)
      fun m first last => .last fun k lower upper => ?_)
    apply isSurrogate_ofNat
    split at low <;> split at high <;> omega
  · exact scalar_refused

theorem scalar_step {state : Option Unfinished} (scalar : ∀ begun ∈ state, begun.Scalar)
    (byte : UInt8) : (step state byte).Scalar := by
  cases state with
  | none => exact scalar_start byte
  | some begun =>
      have afresh := scalar_start byte
      simp only [step]
      split
      · rename_i range
        cases scalar begun rfl with
        | last completes =>
            rw [if_pos rfl]
            refine ⟨fun c found => ?_, by simp⟩
            rw [Option.some.inj (List.mem_singleton.mp found)]
            exact completes byte.toNat range.1 range.2
        | more several continues =>
            rw [if_neg several]
            exact scalar_begun (continues byte.toNat range.1 range.2)
      · refine ⟨fun c found => ?_, afresh.begun⟩
        exact afresh.found c ((List.mem_cons.mp found).resolve_left (by simp))

theorem scalar_scan {state : Option Unfinished} (scalar : ∀ begun ∈ state, begun.Scalar)
    (bytes : List UInt8) : ∀ c, some c ∈ scan state bytes → c.isSurrogate = false := by
  induction bytes generalizing state with
  | nil => cases state <;> simp [scan]
  | cons byte rest ih =>
      have progress := scalar_step scalar byte
      intro c found
      rw [scan_cons, List.mem_append] at found
      exact found.elim (progress.found c) (ih progress.begun c)

theorem hasSurrogate_decodeLossy (bytes : List UInt8) :
    (decodeLossy bytes).hasSurrogate = false := by
  rw [Text.hasSurrogate_eq_false_iff]
  intro c member
  obtain ⟨result, found, rfl⟩ := List.mem_map.mp member
  cases result with
  | none => decide
  | some c => simp [scalar_scan (by simp) bytes c found]

theorem step_ne_nil {state : Option Unfinished} {byte : UInt8} (nothing : (step state byte).1 = []) :
    (step state byte).2 ≠ none := by
  have start_ne_nil : (start byte).1 = [] → (start byte).2 ≠ none := by
    simp only [start]
    repeat' split
    all_goals simp
  cases state with
  | none => exact start_ne_nil nothing
  | some begun =>
      revert nothing
      simp only [step]
      repeat' split
      all_goals simp

theorem scan_eq_nil_iff {state : Option Unfinished} {bytes : List UInt8} :
    scan state bytes = [] ↔ state = none ∧ bytes = [] := by
  constructor
  · intro nothing
    induction bytes generalizing state with
    | nil =>
        cases state with
        | none => exact ⟨rfl, rfl⟩
        | some begun => exact absurd nothing (List.cons_ne_nil _ _)
    | cons byte rest ih =>
        rw [scan_cons, List.append_eq_nil_iff] at nothing
        exact absurd (ih nothing.2).1 (step_ne_nil nothing.1)
  · rintro ⟨rfl, rfl⟩
    rfl

theorem decodeLossy_eq_nil_iff {bytes : List UInt8} : decodeLossy bytes = [] ↔ bytes = [] := by
  rw [decodeLossy, List.map_eq_nil_iff, scan_eq_nil_iff]
  exact and_iff_right rfl

end UriTemplate.Utf8
