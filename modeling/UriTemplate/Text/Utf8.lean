import UriTemplate.Text.CodePoint

/-!
UTF-8. The encoder is total: a surrogate is encoded by the same three-octet rule as its neighbours.
The decoder is a machine that reads one octet at a time and reports, in order, the characters it
finds and the ill-formed parts it has to skip. An ill-formed part is as long as it could still have
become a character, so the octet that breaks it is read again from the start.
-/

namespace UriTemplate.Utf8

def encodePoint (c : CodePoint) : List UInt8 :=
  let n := c.value
  if n < 0x80 then [.ofNat n]
  else if n < 0x800 then [.ofNat (0xc0 + n / 0x40), .ofNat (0x80 + n % 0x40)]
  else if n < 0x10000 then
    [.ofNat (0xe0 + n / 0x1000), .ofNat (0x80 + n / 0x40 % 0x40), .ofNat (0x80 + n % 0x40)]
  else
    [.ofNat (0xf0 + n / 0x40000), .ofNat (0x80 + n / 0x1000 % 0x40),
      .ofNat (0x80 + n / 0x40 % 0x40), .ofNat (0x80 + n % 0x40)]

def encode (t : Text) : List UInt8 := t.flatMap encodePoint

/-- A character begun but not finished: the bits read so far, how many octets are due, and the
range in which the next one lies. The range is narrower than usual after the leading octets that
could begin an overlong form, a surrogate or a number beyond the last code point. -/
structure Unfinished where
  bits : Nat
  due : Nat
  low : Nat
  high : Nat

/-- What was found, with `none` for an ill-formed part, and what is unfinished after it. -/
abbrev Progress := List (Option CodePoint) × Option Unfinished

def start (byte : UInt8) : Progress :=
  let n := byte.toNat
  if n < 0x80 then ([some (.ofNat n)], none)
  else if n < 0xc2 then ([none], none)
  else if n < 0xe0 then ([], some ⟨n - 0xc0, 1, 0x80, 0xbf⟩)
  else if n < 0xf0 then
    ([], some ⟨n - 0xe0, 2, if n = 0xe0 then 0xa0 else 0x80, if n = 0xed then 0x9f else 0xbf⟩)
  else if n < 0xf5 then
    ([], some ⟨n - 0xf0, 3, if n = 0xf0 then 0x90 else 0x80, if n = 0xf4 then 0x8f else 0xbf⟩)
  else ([none], none)

def step : Option Unfinished → UInt8 → Progress
  | none, byte => start byte
  | some begun, byte =>
    let n := byte.toNat
    if begun.low ≤ n ∧ n ≤ begun.high then
      let bits := begun.bits * 0x40 + (n - 0x80)
      if begun.due = 1 then ([some (.ofNat bits)], none)
      else ([], some ⟨bits, begun.due - 1, 0x80, 0xbf⟩)
    else (none :: (start byte).1, (start byte).2)

def scan : Option Unfinished → List UInt8 → List (Option CodePoint)
  | none, [] => []
  | some _, [] => [none]
  | state, byte :: rest => (step state byte).1 ++ scan (step state byte).2 rest

/-- The text whose encoding these octets are, if there is one without surrogates. -/
def decode? (bytes : List UInt8) : Option Text := (scan none bytes).mapM id

/-- The text of these octets, with one replacement character for each ill-formed part. -/
def decodeLossy (bytes : List UInt8) : Text :=
  (scan none bytes).map (·.getD .replacement)

end UriTemplate.Utf8
