import SoapRelay.Text.Hidden

/-!
# Quoted text in messages

A text quoted in a message stands in double quotes. The quote and the backslash are escaped by a
backslash, the common controls have their letter, and every other character that would not show
is written by its number in hexadecimal.
-/

namespace SoapRelay.Quoted

/-- The hexadecimal digits of a code point without leading zeros. -/
def codePoint (n : Nat) : List Char :=
  Nat.toDigits 16 n

/-- Whether a character has no visible form of its own. -/
def needsNumber (c : Char) : Bool :=
  c.toNat < 32 || c.toNat = 127 || (c.toNat > 127 && Hidden.isHidden c)

/-- The written form of a character, where `quotes` are escaped by a backslash too. -/
def escapeChar (quotes : List Char) (c : Char) : List Char :=
  if c = '\x00' then ['\\', '0']
  else if c = '\t' then ['\\', 't']
  else if c = '\n' then ['\\', 'n']
  else if c = '\r' then ['\\', 'r']
  else if c = '\\' ∨ quotes.contains c then ['\\', c]
  else if needsNumber c then ['\\', 'u', '\x7b'] ++ codePoint c.toNat ++ ['\x7d']
  else [c]

def escape (quotes : List Char) (cs : List Char) : List Char :=
  cs.flatMap (escapeChar quotes)

/-- A text as it is quoted in a message. -/
def text (s : String) : String :=
  String.ofList ('"' :: escape ['"'] s.toList ++ ['"'])

/-- A file path as it is quoted in a message: both kinds of quotes are escaped. -/
def path (s : String) : String :=
  String.ofList ('"' :: escape ['"', '\''] s.toList ++ ['"'])

end SoapRelay.Quoted
