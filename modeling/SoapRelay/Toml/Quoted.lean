import SoapRelay.Toml.Reader

/-!
# Quoted texts

Between double quotes a backslash begins an escape; between single quotes every character stands for
itself. Tripled quotes enclose several lines: the line break behind the opening ones is dropped, line
breaks are read as line feeds, and up to two quotes may stand right before the closing ones.
-/

namespace SoapRelay.Toml

/-- The character of a code point in hexadecimal digits. -/
def charOfHex? (digits : List Char) : Option Char :=
  let code := ofDigits 16 digits
  if digits.all isHexDigit then
    if h : code.isValidChar then some (Char.ofNatAux code h) else none
  else none

/-- The character that a letter behind a backslash stands for. -/
def charOfEscape? : Char → Option Char
  | 'b' => some '\x08'
  | 't' => some '\t'
  | 'n' => some '\n'
  | 'f' => some '\x0c'
  | 'r' => some '\r'
  | '"' => some '"'
  | '\\' => some '\\'
  | _ => none

/-- A character in front of what was read. -/
def keep (c : Char) : Option (List Char × List Char) → Option (List Char × List Char) :=
  Option.map fun (text, rest) => (c :: text, rest)

/-- The text up to the closing double quote, and what follows it. -/
def doubleQuoted : List Char → Option (List Char × List Char)
  | [] => none
  | '"' :: rest => some ([], rest)
  | '\\' :: 'u' :: a :: b :: c :: d :: rest => do
    keep (← charOfHex? [a, b, c, d]) (doubleQuoted rest)
  | '\\' :: 'U' :: a :: b :: c :: d :: e :: f :: g :: h :: rest => do
    keep (← charOfHex? [a, b, c, d, e, f, g, h]) (doubleQuoted rest)
  | '\\' :: c :: rest => do
    keep (← charOfEscape? c) (doubleQuoted rest)
  | c :: rest => if isPrintable c then keep c (doubleQuoted rest) else none

/-- The text up to the closing single quote, and what follows it. -/
def singleQuoted : List Char → Option (List Char × List Char)
  | [] => none
  | '\'' :: rest => some ([], rest)
  | c :: rest => if isPrintable c then keep c (singleQuoted rest) else none

/-- Whether nothing but blanks is left of a line. -/
def lineEnds (cs : List Char) : Bool :=
  match cs.dropWhile isBlank with
  | '\n' :: _ => true
  | '\r' :: '\n' :: _ => true
  | _ => false

/-- The text up to the closing double quotes, and what follows them. A backslash at the end of a line
joins it to the next text; `joining` says that blanks and line breaks are skipped. -/
def tripleDouble (joining : Bool) : List Char → Option (List Char × List Char)
  | [] => none
  | '"' :: '"' :: '"' :: '"' :: '"' :: rest => some (['"', '"'], rest)
  | '"' :: '"' :: '"' :: '"' :: rest => some (['"'], rest)
  | '"' :: '"' :: '"' :: rest => some ([], rest)
  | '\\' :: 'u' :: a :: b :: c :: d :: rest => do
    keep (← charOfHex? [a, b, c, d]) (tripleDouble false rest)
  | '\\' :: 'U' :: a :: b :: c :: d :: e :: f :: g :: h :: rest => do
    keep (← charOfHex? [a, b, c, d, e, f, g, h]) (tripleDouble false rest)
  | '\\' :: c :: rest =>
    if lineEnds (c :: rest) then tripleDouble true (c :: rest)
    else do keep (← charOfEscape? c) (tripleDouble false rest)
  | '\r' :: '\n' :: rest =>
    if joining then tripleDouble true rest else keep '\n' (tripleDouble false rest)
  | '\n' :: rest =>
    if joining then tripleDouble true rest else keep '\n' (tripleDouble false rest)
  | c :: rest =>
    if joining && isBlank c then tripleDouble true rest
    else if isPrintable c then keep c (tripleDouble false rest)
    else none

/-- The text up to the closing single quotes, and what follows them. -/
def tripleSingle : List Char → Option (List Char × List Char)
  | [] => none
  | '\'' :: '\'' :: '\'' :: '\'' :: '\'' :: rest => some (['\'', '\''], rest)
  | '\'' :: '\'' :: '\'' :: '\'' :: rest => some (['\''], rest)
  | '\'' :: '\'' :: '\'' :: rest => some ([], rest)
  | '\r' :: '\n' :: rest => keep '\n' (tripleSingle rest)
  | c :: rest => if isPrintable c || c = '\n' then keep c (tripleSingle rest) else none

def lineText : Reader String
  | '"' :: cs => (doubleQuoted cs).map fun (text, rest) => (String.ofList text, rest)
  | '\'' :: cs => (singleQuoted cs).map fun (text, rest) => (String.ofList text, rest)
  | _ => none

def dropBreak : List Char → List Char
  | '\n' :: cs => cs
  | '\r' :: '\n' :: cs => cs
  | cs => cs

def quotedText : Reader String
  | '"' :: '"' :: '"' :: cs =>
    (tripleDouble false (dropBreak cs)).map fun (text, rest) => (String.ofList text, rest)
  | '\'' :: '\'' :: '\'' :: cs =>
    (tripleSingle (dropBreak cs)).map fun (text, rest) => (String.ofList text, rest)
  | cs => lineText cs

end SoapRelay.Toml
