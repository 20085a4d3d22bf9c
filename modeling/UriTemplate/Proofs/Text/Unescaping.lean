import UriTemplate.Proofs.Text.Percent

/-!
Decoding is local. Each run of escapes, taken as far as it goes, becomes the text of its octets, and
every other character is kept where it stands. A run of ASCII is decoded at once, but an octet of
ASCII never completes what others have begun: what came before it is settled, and it is read as if
the text began with it.
-/

namespace UriTemplate

namespace Utf8

def Unfinished.Awaits (begun : Unfinished) : Prop := 0x80 ≤ begun.low

theorem awaits_start (byte : UInt8) : ∀ begun ∈ (start byte).2, begun.Awaits := by
  simp only [start]
  repeat' split
  all_goals simp [Unfinished.Awaits]

theorem awaits_step {state : Option Unfinished} (byte : UInt8) :
    ∀ begun ∈ (step state byte).2, begun.Awaits := by
  cases state with
  | none => exact awaits_start byte
  | some earlier =>
      have afresh := awaits_start byte
      simp only [step]
      split
      · split <;> simp [Unfinished.Awaits]
      · exact afresh

theorem step_ascii {state : Option Unfinished} (awaits : ∀ begun ∈ state, begun.Awaits)
    {byte : UInt8} (ascii : byte.toNat < 0x80) :
    step state byte = (scan state [] ++ [some (.ofNat byte.toNat)], none) := by
  have alone := start_one byte.toNat ascii
  rw [UInt8.ofNat_toNat] at alone
  cases state with
  | none => exact alone
  | some begun =>
      have low : 0x80 ≤ begun.low := awaits begun rfl
      simp only [step]
      rw [if_neg (by omega), alone]
      rfl

theorem scan_append_ascii {state : Option Unfinished} (awaits : ∀ begun ∈ state, begun.Awaits)
    {byte : UInt8} (ascii : byte.toNat < 0x80) (bytes rest : List UInt8) :
    scan state (bytes ++ byte :: rest) = scan state bytes ++ scan none (byte :: rest) := by
  induction bytes generalizing state with
  | nil =>
      have afresh : step none byte = _ := step_ascii (by simp) ascii
      rw [List.nil_append, scan_cons, scan_cons, step_ascii awaits ascii, afresh,
        List.append_assoc]
      rfl
  | cons first bytes ih =>
      rw [List.cons_append, scan_cons, scan_cons, ih (awaits_step first), List.append_assoc]

theorem decodeLossy_nil : decodeLossy [] = [] := rfl

theorem decodeLossy_append {rest : List UInt8} (ascii : ∀ byte ∈ rest.head?, byte.toNat < 0x80)
    (bytes : List UInt8) : decodeLossy (bytes ++ rest) = decodeLossy bytes ++ decodeLossy rest := by
  cases rest with
  | nil => rw [List.append_nil, decodeLossy_nil, List.append_nil]
  | cons byte rest =>
      rw [decodeLossy, scan_append_ascii (by simp) (ascii byte rfl), List.map_append]
      rfl

theorem decodeLossy_cons_ascii {c : CodePoint} (ascii : c.value < 0x80) (bytes : List UInt8) :
    decodeLossy (.ofNat c.value :: bytes) = c :: decodeLossy bytes := by
  rw [decodeLossy, scan_cons, step_none, start_one c.value ascii, CodePoint.ofNat_value]
  rfl

end Utf8

theorem Hex.isAscii_of_value? {c : CodePoint} {n : Nat} (digit : value? c = some n) :
    c.isAscii = true := by
  rw [CodePoint.isAscii, decide_eq_true_eq]
  unfold value? at digit
  split at digit
  · omega
  split at digit
  · omega
  split at digit
  · omega
  · exact absurd digit.symm (Option.some_ne_none n)

namespace Percent

def firstEscape? : Text → Option UInt8
  | percent :: high :: low :: _ => escaped? percent high low
  | _ => none

/-- Escapes and nothing else, with the octets that they name. -/
inductive Escapes : List UInt8 → Text → Prop
  | nil : Escapes [] []
  | cons {percent high low byte bytes rest} : escaped? percent high low = some byte →
      Escapes bytes rest → Escapes (byte :: bytes) (percent :: high :: low :: rest)

/-- A character that begins no escape is kept; a group of escapes that is followed by no other
escape becomes the text of its octets. -/
inductive DecodesLocally : Text → Text → Prop
  | nil : DecodesLocally [] []
  | kept {c rest value} : firstEscape? (c :: rest) = none → DecodesLocally rest value →
      DecodesLocally (c :: rest) (c :: value)
  | group {bytes group rest value} : bytes ≠ [] → Escapes bytes group →
      firstEscape? rest = none → DecodesLocally rest value →
      DecodesLocally (group ++ rest) (Utf8.decodeLossy bytes ++ value)

variable {s t group rest value : Text} {bytes : List UInt8} {c percent high low : CodePoint}

theorem escaped?_percent (high low : CodePoint) :
    escaped? '%' high low =
      (Hex.value? high).bind fun h => (Hex.value? low).bind fun l => some (.ofNat (h * 16 + l)) :=
  rfl

theorem isAscii_of_escaped? {byte : UInt8} (escaped : escaped? percent high low = some byte) :
    percent.isAscii = true ∧ high.isAscii = true ∧ low.isAscii = true := by
  by_cases sign : percent = .ofChar '%'
  · subst sign
    rw [escaped?_percent, Option.bind_eq_some_iff] at escaped
    obtain ⟨h, highDigit, behind⟩ := escaped
    obtain ⟨l, lowDigit, _⟩ := Option.bind_eq_some_iff.mp behind
    exact ⟨by decide, Hex.isAscii_of_value? highDigit, Hex.isAscii_of_value? lowDigit⟩
  · rw [escaped?_of_ne sign] at escaped
    exact absurd escaped.symm (Option.some_ne_none byte)

theorem firstEscape?_of_leads (leads : s <+: t) (unescaped : firstEscape? t = none) :
    firstEscape? s = none := by
  obtain ⟨more, rfl⟩ := leads
  match s with
  | [] => rfl
  | [_] => rfl
  | [_, _] => rfl
  | _ :: _ :: _ :: _ => exact unescaped

theorem octets_kept (unescaped : firstEscape? (c :: rest) = none) :
    octets (c :: rest) = .ofNat c.value :: octets rest := by
  match rest with
  | [] => rfl
  | [_] => rfl
  | high :: low :: rest =>
      rw [firstEscape?] at unescaped
      rw [octets, unescaped]

theorem Escapes.octets_append (escapes : Escapes bytes group) (rest : Text) :
    octets (group ++ rest) = bytes ++ octets rest := by
  induction escapes with
  | nil => rfl
  | cons escaped _ ih =>
      simp only [List.cons_append, octets, escaped]
      rw [ih]

theorem Escapes.isAscii (escapes : Escapes bytes group) : ∀ c ∈ group, c.isAscii = true := by
  induction escapes with
  | nil => simp
  | cons escaped _ ih =>
      obtain ⟨percent, high, low⟩ := isAscii_of_escaped? escaped
      simpa [percent, high, low] using ih

theorem decode_eq_run (t : Text) :
    decode t = Utf8.decodeLossy (octets (t.takeWhile CodePoint.isAscii)) ++
      decode (t.dropWhile CodePoint.isAscii) := by
  cases t with
  | nil => rfl
  | cons c rest =>
      by_cases ascii : c.isAscii = true
      · rw [decode, if_pos ascii, List.takeWhile_cons_of_pos ascii,
          List.dropWhile_cons_of_pos ascii]
      · rw [List.takeWhile_cons_of_neg ascii, List.dropWhile_cons_of_neg ascii]
        rfl

theorem decode_kept (unescaped : firstEscape? (c :: rest) = none) :
    decode (c :: rest) = c :: decode rest := by
  by_cases ascii : c.isAscii = true
  · have leads : c :: rest.takeWhile CodePoint.isAscii <+: c :: rest :=
      List.cons_prefix_cons.mpr ⟨rfl, List.takeWhile_prefix _⟩
    have small : c.value < 0x80 := by simpa [CodePoint.isAscii] using ascii
    rw [decode_eq_run, List.takeWhile_cons_of_pos ascii, List.dropWhile_cons_of_pos ascii,
      octets_kept (firstEscape?_of_leads leads unescaped), Utf8.decodeLossy_cons_ascii small,
      decode_eq_run rest]
    rfl
  · rw [decode, if_neg ascii]

theorem ascii_of_head?_octets (ascii : ∀ c ∈ t, c.isAscii = true)
    (unescaped : firstEscape? t = none) :
    ∀ byte ∈ (octets t).head?, byte.toNat < 0x80 := by
  cases t with
  | nil => simp [octets]
  | cons c rest =>
      have small : c.value < 0x80 := by
        simpa [CodePoint.isAscii] using ascii c List.mem_cons_self
      rw [octets_kept unescaped]
      intro byte first
      rw [← Option.some.inj first, Utf8.toNat_ofNat_octet (by omega)]
      exact small

theorem Escapes.decode_append (escapes : Escapes bytes group)
    (unescaped : firstEscape? rest = none) :
    decode (group ++ rest) = Utf8.decodeLossy bytes ++ decode rest := by
  -- What follows the group within its run of ASCII is no continuation of it.
  have settled := ascii_of_head?_octets (fun c => List.mem_takeWhile_imp)
    (firstEscape?_of_leads (List.takeWhile_prefix CodePoint.isAscii) unescaped)
  rw [decode_eq_run, List.takeWhile_append_of_pos escapes.isAscii,
    List.dropWhile_append_of_pos escapes.isAscii, escapes.octets_append,
    Utf8.decodeLossy_append settled, List.append_assoc, ← decode_eq_run]

theorem exists_escapes (t : Text) :
    ∃ bytes group rest, t = group ++ rest ∧ Escapes bytes group ∧ firstEscape? rest = none := by
  fun_induction octets t with
  | case1 => exact ⟨[], [], [], rfl, .nil, rfl⟩
  | case2 percent high low rest byte escaped ih =>
      obtain ⟨bytes, group, others, rfl, escapes, unescaped⟩ := ih
      exact ⟨byte :: bytes, _, others, rfl, .cons escaped escapes, unescaped⟩
  | case3 percent high low rest unescaped => exact ⟨[], [], _, rfl, .nil, unescaped⟩
  | case4 c rest short =>
      refine ⟨[], [], c :: rest, rfl, .nil, ?_⟩
      match rest with
      | [] => rfl
      | [_] => rfl
      | high :: low :: rest => exact absurd rfl (short high low rest)

theorem decodesLocally_decode (t : Text) : DecodesLocally t (decode t) := by
  -- A group is as long as it likes, so the induction is on the length.
  induction size : t.length using Nat.strongRecOn generalizing t with
  | ind size ih =>
      obtain ⟨bytes, group, rest, rfl, escapes, unescaped⟩ := exists_escapes t
      cases escapes with
      | nil =>
          cases rest with
          | nil =>
              rw [List.nil_append, decode_eq_nil_iff.mpr rfl]
              exact .nil
          | cons c rest =>
              rw [List.nil_append, decode_kept unescaped]
              exact .kept unescaped (ih rest.length (by simp at size; omega) rest rfl)
      | cons escaped others =>
          have escapes := Escapes.cons escaped others
          rw [escapes.decode_append unescaped]
          exact .group (List.cons_ne_nil _ _) escapes unescaped
            (ih rest.length (by simp at size; omega) rest rfl)

theorem decodesLocally_iff : DecodesLocally t value ↔ value = decode t := by
  constructor
  · intro decodes
    induction decodes with
    | nil => exact (decode_eq_nil_iff.mpr rfl).symm
    | kept unescaped _ ih => rw [decode_kept unescaped, ih]
    | group _ escapes unescaped _ ih => rw [escapes.decode_append unescaped, ih]
  · rintro rfl
    exact decodesLocally_decode t

end Percent

end UriTemplate
