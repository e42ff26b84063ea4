import SoapRelay.Toml.Reader

/-!
# Numbers, dates and times

An integer is decimal with a sign and no leading zeros, or without a sign in base 16, 8 or 2, and
fits in 64 bits. An underscore may stand between two digits. Real numbers, dates and times are kept
as they are written.
-/

namespace SoapRelay.Toml

/-- Whether underscores stand between digits only. -/
def separatesDigits : List Char → Bool
  | [] => false
  | [c] => c ≠ '_'
  | c :: d :: rest => (c ≠ '_' || d ≠ '_') && separatesDigits (d :: rest)

/-- One digit or more, less the underscores between them. -/
def digits (isDigit : Char → Bool) : Reader (List Char) := do
  let taken ← Reader.many fun c => isDigit c || c = '_'
  guard (taken.head? ≠ some '_' ∧ separatesDigits taken)
  return taken.filter (· ≠ '_')

/-- Decimal digits without leading zeros. -/
def wholeDigits : Reader (List Char) := do
  let taken ← digits isDigit
  guard (taken = ['0'] ∨ taken.head? ≠ some '0')
  return taken

def isSign (c : Char) : Bool := c = '+' || c = '-'

/-- A number that fits in 64 bits. -/
def fitting (n : Int) : Reader Int64 := do
  guard (Int64.minValue.toInt ≤ n ∧ n ≤ Int64.maxValue.toInt)
  return Int64.ofInt n

/-- Digits of a base behind the letters that announce it. -/
def based (letters : List Char) (base : Nat) (isDigit : Char → Bool) : Reader Int64 := do
  Reader.exactly letters
  fitting (ofDigits base (← digits isDigit))

def integer : Reader Int64 :=
  based ['0', 'x'] 16 isHexDigit
    <|> based ['0', 'o'] 8 (fun c => '0' ≤ c && c ≤ '7')
    <|> based ['0', 'b'] 2 (fun c => c = '0' || c = '1')
    <|> do
      let sign ← Reader.optional (Reader.one isSign)
      let n : Int := ofDigits 10 (← wholeDigits)
      fitting (if sign = some '-' then -n else n)

def fraction : Reader Unit := do
  Reader.exactly ['.']
  let _ ← digits isDigit

def exponent : Reader Unit := do
  let _ ← Reader.one fun c => c = 'e' || c = 'E'
  let _ ← Reader.optional (Reader.one isSign)
  let _ ← digits isDigit

/-- A number with a fraction, an exponent or both, or a name of what is no number or not finite. -/
def real : Reader String :=
  Reader.spelling do
    let _ ← Reader.optional (Reader.one isSign)
    Reader.exactly ['i', 'n', 'f'] <|> Reader.exactly ['n', 'a', 'n'] <|> do
      let _ ← wholeDigits
      exponent <|> do
        fraction
        let _ ← Reader.optional exponent

/-! ### Dates and times -/

/-- A number of so many digits within bounds. -/
def bounded (width low high : Nat) : Reader Nat := do
  let n := ofDigits 10 (← Reader.count width isDigit)
  guard (low ≤ n ∧ n ≤ high)
  return n

def isLeapYear (year : Nat) : Bool :=
  year % 4 = 0 && (year % 100 ≠ 0 || year % 400 = 0)

def daysInMonth (year month : Nat) : Nat :=
  if month = 2 then if isLeapYear year then 29 else 28
  else if month = 4 ∨ month = 6 ∨ month = 9 ∨ month = 11 then 30
  else 31

def date : Reader Unit := do
  let year ← bounded 4 0 9999
  Reader.exactly ['-']
  let month ← bounded 2 1 12
  Reader.exactly ['-']
  let _ ← bounded 2 1 (daysInMonth year month)

/-- A time of day. A minute may have a leap second. -/
def timeOfDay : Reader Unit := do
  let _ ← bounded 2 0 23
  Reader.exactly [':']
  let _ ← bounded 2 0 59
  Reader.exactly [':']
  let _ ← bounded 2 0 60
  let _ ← Reader.optional do
    Reader.exactly ['.']
    let _ ← Reader.one isDigit
    let _ ← Reader.many isDigit

/-- The distance of a time from universal time. -/
def offset : Reader Unit :=
  (do let _ ← Reader.one fun c => c = 'Z' || c = 'z') <|> do
    let _ ← Reader.one isSign
    let _ ← bounded 2 0 23
    Reader.exactly [':']
    let _ ← bounded 2 0 59

def moment : Reader String :=
  Reader.spelling <| timeOfDay <|> do
    date
    let _ ← Reader.optional do
      let _ ← Reader.one fun c => c = 'T' || c = 't' || c = ' '
      timeOfDay
      let _ ← Reader.optional offset

end SoapRelay.Toml
