/-!
# Reading from the front of a text

A reader takes what it reads off the front of the characters that are left, or fails. A reader that
failed has taken nothing.
-/

namespace SoapRelay.Toml

abbrev Reader (α : Type) := StateT (List Char) Option α

namespace Reader

variable {α : Type}

/-- The next character, which stays. -/
def peek : Reader (Option Char) := fun cs => some (cs.head?, cs)

/-- Takes the next character if there is one that fits. -/
def one (fits : Char → Bool) : Reader Char
  | c :: cs => if fits c then some (c, cs) else none
  | [] => none

def exactly (part : List Char) : Reader Unit := fun cs =>
  if part.isPrefixOf cs then some ((), cs.drop part.length) else none

/-- Takes characters as long as they fit. -/
def many (fits : Char → Bool) : Reader (List Char) := fun cs =>
  some (cs.takeWhile fits, cs.dropWhile fits)

/-- Takes a number of characters that all fit. -/
def count (n : Nat) (fits : Char → Bool) : Reader (List Char) := fun cs =>
  let taken := cs.take n
  if taken.length = n ∧ taken.all fits then some (taken, cs.drop n) else none

def optional (r : Reader α) : Reader (Option α) :=
  (some <$> r) <|> pure none

/-- What a reader took, as it is written. -/
def spelling (r : Reader Unit) : Reader String := fun cs =>
  match r cs with
  | some (_, rest) => some (String.ofList (cs.take (cs.length - rest.length)), rest)
  | none => none

/-- Items with separators between them, as often as they come. Each item and each separator takes at
least one character, so the length of the text bounds their number. -/
def separated (item : Reader α) (separator : Reader Unit) : Reader (List α) := fun cs =>
  let rec go : Nat → Reader (List α)
    | 0 => failure
    | n + 1 => do
      let first ← item
      match ← optional separator with
      | some _ => return first :: (← go n)
      | none => return [first]
  go (cs.length + 1) cs

end Reader

def isBlank (c : Char) : Bool := c = ' ' || c = '\t'

def blanks : Reader Unit := do
  let _ ← Reader.many isBlank

/-- Takes the end of a line that is not the end of the text. -/
def lineBreak : Reader Unit :=
  Reader.exactly ['\n'] <|> Reader.exactly ['\r', '\n']

/-- Whether a character may stand in a comment or between quotes. -/
def isPrintable (c : Char) : Bool :=
  c = '\t' || (' ' ≤ c && c ≠ '\x7f')

def comment : Reader Unit := do
  Reader.exactly ['#']
  let _ ← Reader.many isPrintable

def isDigit (c : Char) : Bool := '0' ≤ c && c ≤ '9'

def isHexDigit (c : Char) : Bool :=
  isDigit c || ('a' ≤ c && c ≤ 'f') || ('A' ≤ c && c ≤ 'F')

def digitValue (c : Char) : Nat :=
  if isDigit c then c.toNat - '0'.toNat
  else if 'a' ≤ c then c.toNat - 'a'.toNat + 10
  else c.toNat - 'A'.toNat + 10

def ofDigits (base : Nat) (digits : List Char) : Nat :=
  digits.foldl (fun n c => n * base + digitValue c) 0

end SoapRelay.Toml
