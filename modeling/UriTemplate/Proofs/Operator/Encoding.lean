import UriTemplate.Operator.Rendering
import UriTemplate.Proofs.Text.Joined
import UriTemplate.Proofs.Text.Percent

/-!
Encoding as the operators do it. Every operator's encoding can be decoded and keeps all texts apart,
those with surrogates too, and one that leaves no reserved character as it is writes none of the
delimiters.
-/

namespace UriTemplate

namespace Operator

variable {op : Operator} {t : Text}

theorem transparent_allowed (op : Operator) : Percent.Transparent op.allowed := by
  unfold Percent.Transparent
  cases op <;> decide

theorem decode_encode (op : Operator) (scalars : t.hasSurrogate = false) :
    Percent.decode (op.encode t) = t :=
  Percent.decode_encode op.transparent_allowed scalars

theorem encode_append (op : Operator) (s t : Text) :
    op.encode (s ++ t) = op.encode s ++ op.encode t :=
  List.flatMap_append

/-- The octets behind an encoded text are its own, and these keep surrogates apart as well. -/
theorem encode_injective {s : Text} (same : op.encode s = op.encode t) : s = t := by
  have octets := congrArg Percent.octets same
  rw [encode, encode, Percent.octets_encode op.transparent_allowed,
    Percent.octets_encode op.transparent_allowed] at octets
  exact Utf8.encode_injective octets

theorem encode_eq_nil_iff : op.encode t = [] ↔ t = [] :=
  Percent.encode_eq_nil_iff

theorem allowed_of_isNamed (named : op.isNamed = true) : op.allowed = [] := by
  cases op <;> first | rfl | exact absurd named Bool.false_ne_true

theorem not_mem_encode {c : CodePoint} (strict : op.allowed = [])
    (reserved : Percent.isUnreserved c = false) (other : c ≠ .ofChar '%') : c ∉ op.encode t := by
  intro member
  rcases Percent.mem_encode member with unreserved | percent | allowed
  · rw [reserved] at unreserved
    exact absurd unreserved Bool.false_ne_true
  · exact other percent
  · rw [strict] at allowed
    exact absurd allowed List.not_mem_nil

theorem splitOn_joined_encode (strict : op.allowed = []) {items : List Text}
    (members : items ≠ []) :
    Text.splitOn (.ofChar ',') (Text.joined [.ofChar ','] (items.map op.encode)) =
      items.map op.encode := by
  apply Text.splitOn_joined (List.map_eq_nil_iff.not.mpr members)
  exact List.forall_mem_map.mpr fun item _ => not_mem_encode strict (by decide) (by decide)

theorem joiner_of_isNamed (named : op.isNamed = true) :
    Percent.isUnreserved op.joiner = false ∧ op.joiner ≠ .ofChar '%' ∧ op.joiner ≠ .ofChar '=' ∧
      op.joiner ≠ .ofChar ',' := by
  cases op <;> first | decide | exact absurd named Bool.false_ne_true

/-- A text without surrogates is decoded to itself, whatever escapes it seems to contain, and all
texts are encoded piece by piece and told apart. -/
theorem encode_reversible (op : Operator) :
    (∀ s : Text, s.hasSurrogate = false → Percent.decode (op.encode s) = s) ∧
      (∀ s t : Text, op.encode (s ++ t) = op.encode s ++ op.encode t) ∧
      ∀ s t : Text, op.encode s = op.encode t → s = t :=
  ⟨fun _ scalars => op.decode_encode scalars, op.encode_append, fun _ _ => encode_injective⟩

theorem encode_reversible_pair :
    Percent.decode (reserved.encode "%41/é") = "%41/é" ∧
      reserved.encode [⟨0xd83d, by decide⟩, ⟨0xde00, by decide⟩] ≠
        reserved.encode [⟨0x1f600, by decide⟩] := by
  obtain ⟨decoded, _, apart⟩ := encode_reversible .reserved
  refine ⟨decoded "%41/é" (by decide), fun same => ?_⟩
  exact absurd (apart _ _ same) (by decide)

end Operator

end UriTemplate
