import UriTemplate.Text.Hex

/-!
Strings in JSON. Writing escapes the quote, the backslash and the control characters below the
space, by a letter where there is one. Reading accepts every escape, takes two escaped surrogates as
the character they encode, and refuses a surrogate that stands alone.
-/

namespace UriTemplate.Json

def escapePoint (c : CodePoint) : Text :=
  if c = '"' ∨ c = '\\' then ['\\', c]
  else if c.value = 0x08 then "\\b"
  else if c = '\t' then "\\t"
  else if c = '\n' then "\\n"
  else if c.value = 0x0c then "\\f"
  else if c = '\r' then "\\r"
  else if c.value < 0x20 then "\\u" ++ Hex.lower 4 c.value
  else [c]

def writeString (t : Text) : Text := "\"" ++ t.flatMap escapePoint ++ "\""

def escapedBy? (c : CodePoint) : Option CodePoint :=
  if c = '"' ∨ c = '\\' ∨ c = '/' then some c
  else if c = 'b' then some (.ofNat 0x08)
  else if c = 'f' then some (.ofNat 0x0c)
  else if c = 'n' then some '\n'
  else if c = 'r' then some '\r'
  else if c = 't' then some '\t'
  else none

def readUnit : Text → Option (Nat × Text)
  | a :: b :: c :: d :: rest => do
    let a ← Hex.value? a
    let b ← Hex.value? b
    let c ← Hex.value? c
    let d ← Hex.value? d
    return (((a * 16 + b) * 16 + c) * 16 + d, rest)
  | _ => none

/-- Behind `\u`: the character, and what follows its escape or its pair of escapes. -/
def readNumbered (t : Text) : Option (CodePoint × Text) := do
  let (high, rest) ← readUnit t
  if high < 0xd800 ∨ 0xdfff < high then return (.ofNat high, rest)
  else
    guard (high < 0xdc00)
    let rest ← Text.after? "\\u" rest
    let (low, rest) ← readUnit rest
    guard (0xdc00 ≤ low ∧ low ≤ 0xdfff)
    return (.ofNat (0x10000 + (high - 0xd800) * 0x400 + (low - 0xdc00)), rest)

/-- Behind the opening quote: the text up to the closing quote, and what follows it. No more than
`fuel` characters are read. -/
def readString (fuel : Nat) (t : Text) : Option (Text × Text) :=
  match fuel, t with
  | fuel + 1, c :: rest =>
    if c = '"' then some ([], rest)
    else if c.value < 0x20 then none
    else if c = '\\' then
      match rest with
      | [] => none
      | d :: rest => do
        let (read, rest) ← if d = 'u' then readNumbered rest
          else (escapedBy? d).map fun read => (read, rest)
        let (more, rest) ← readString fuel rest
        return (read :: more, rest)
    else (readString fuel rest).map fun (more, rest) => (c :: more, rest)
  | _, _ => none

end UriTemplate.Json
