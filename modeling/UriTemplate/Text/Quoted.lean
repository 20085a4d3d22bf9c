import UriTemplate.Text.Hex
import UriTemplate.Text.Printable

/-!
Quoted forms of texts and octets, safe to show on one line. What is not shown as it is becomes an
escape that names its number, so a quoted form determines the text it quotes.
-/

namespace UriTemplate.Quoted

/-- A single quote, unless the text holds single quotes and no double one. -/
def mark (t : Text) : CodePoint :=
  if t.contains '\'' && !t.contains '"' then '"' else '\''

def escapePoint (shown : CodePoint → Bool) (mark c : CodePoint) : Text :=
  if c = mark ∨ c = '\\' then ['\\', c]
  else if c = '\t' then ['\\', 't']
  else if c = '\n' then ['\\', 'n']
  else if c = '\r' then ['\\', 'r']
  else if shown c then [c]
  else if c.value < 0x100 then '\\' :: 'x' :: Hex.lower 2 c.value
  else if c.value < 0x10000 then '\\' :: 'u' :: Hex.lower 4 c.value
  else '\\' :: 'U' :: Hex.lower 8 c.value

def write (shown : CodePoint → Bool) (t : Text) : Text :=
  mark t :: t.flatMap (escapePoint shown (mark t)) ++ [mark t]

def text (t : Text) : Text := write CodePoint.isPrintable t

/-- Octets are quoted as the code points of their numbers, with only ASCII shown, after a `b`. -/
def octets (bytes : List UInt8) : Text :=
  'b' :: write (fun c => c.isAscii && c.isPrintable) (bytes.map fun byte => .ofNat byte.toNat)

end UriTemplate.Quoted
