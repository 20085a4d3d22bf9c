import UriTemplate.Text.Hex
import UriTemplate.Text.Utf8

/-!
Percent-encoding. Encoding works code point by code point: one that is allowed stands for itself,
any other becomes the escapes of its UTF-8 octets. Decoding reads a run of ASCII characters as
octets, an escape giving the octet it names and any other character its own, and takes the run as
UTF-8; characters outside ASCII stand for themselves. A percent sign without two digits is kept.
-/

namespace UriTemplate.Percent

def isUnreserved (c : CodePoint) : Bool :=
  c.isLetter || c.isDigit || c = '-' || c = '.' || c = '_' || c = '~'

def escape (byte : UInt8) : Text :=
  ['%', Hex.upperDigit (byte.toNat / 16), Hex.upperDigit (byte.toNat % 16)]

/-- Encodes one code point, `reserved` being allowed besides the unreserved characters. -/
def encodePoint (reserved : Text) (c : CodePoint) : Text :=
  if isUnreserved c || reserved.contains c then [c]
  else (Utf8.encodePoint c).flatMap escape

def encode (reserved : Text) (t : Text) : Text := t.flatMap (encodePoint reserved)

def escaped? (percent high low : CodePoint) : Option UInt8 := do
  guard (percent = '%')
  let h ← Hex.value? high
  let l ← Hex.value? low
  return .ofNat (h * 16 + l)

/-- The octets that a run of ASCII characters stands for. -/
def octets : Text → List UInt8
  | [] => []
  | percent :: high :: low :: rest =>
    match escaped? percent high low with
    | some byte => byte :: octets rest
    | none => .ofNat percent.value :: octets (high :: low :: rest)
  | c :: rest => .ofNat c.value :: octets rest

def decode (t : Text) : Text :=
  match t with
  | [] => []
  | c :: rest =>
    if c.isAscii then
      Utf8.decodeLossy (octets (c :: rest.takeWhile CodePoint.isAscii)) ++
        decode (rest.dropWhile CodePoint.isAscii)
    else c :: decode rest
termination_by t.length
decreasing_by
  · have shorter := (List.dropWhile_sublist CodePoint.isAscii (l := rest)).length_le
    simp only [List.length_cons]
    omega
  · simp

end UriTemplate.Percent
