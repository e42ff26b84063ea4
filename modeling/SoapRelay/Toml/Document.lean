import SoapRelay.Toml.Number
import SoapRelay.Toml.Quoted
import SoapRelay.Toml.Value

/-!
# Reading a configuration file

A file is a sequence of lines: headers, keys with their values, and lines that say nothing. The lines
are read first, then the tables are built from them in order, because whether a key is new depends on
the lines before it. A byte order mark may stand in front.
-/

namespace SoapRelay.Toml

def isBareKey (c : Char) : Bool :=
  isDigit c || ('a' ≤ c && c ≤ 'z') || ('A' ≤ c && c ≤ 'Z') || c = '_' || c = '-'

def keyPart : Reader String :=
  lineText <|> do
    let cs ← Reader.many isBareKey
    guard (cs ≠ [])
    return String.ofList cs

/-- A key between blanks. -/
def spacedKey : Reader String := do
  blanks
  let key ← keyPart
  blanks
  return key

/-- Keys with points between them: those on the way, and the last one. -/
def dottedKey : Reader (List String × String) := do
  let keys ← Reader.separated spacedKey (Reader.exactly ['.'])
  match keys.getLast? with
  | some last => return (keys.dropLast, last)
  | none => failure

/-- Takes blanks, line breaks and comments. -/
def gaps : Reader Unit := fun cs =>
  let rec go : Nat → Reader Unit
    | 0 => pure ()
    | n + 1 => do
      blanks
      match ← Reader.optional (lineBreak <|> do comment; lineBreak) with
      | some _ => go n
      | none => pure ()
  go (cs.length + 1) cs

/-- A key with its value. -/
structure Pair where
  path : List String
  key : String
  value : Value

def pair (value : Reader Value) : Reader Pair := do
  let (path, key) ← dottedKey
  Reader.exactly ['=']
  blanks
  let v ← value
  blanks
  return ⟨path, key, v⟩

/-- Values up to the closing bracket, with gaps around them and perhaps a comma behind the last. -/
def items (value : Reader Value) : Reader (List Value) := fun cs =>
  let rec go : Nat → Reader (List Value)
    | 0 => failure
    | n + 1 => do
      gaps
      match ← Reader.optional (Reader.exactly [']']) with
      | some _ => return []
      | none =>
        let v ← value
        gaps
        match ← Reader.optional (Reader.exactly [',']) with
        | some _ => return v :: (← go n)
        | none =>
          Reader.exactly [']']
          return [v]
  go (cs.length + 1) cs

def Entries.ofPairs? (pairs : List Pair) : Option Entries :=
  pairs.foldlM (fun t p => t.addDotted? p.key p.value p.path) []

/-- Keys and values up to the closing brace, on one line. -/
def members (value : Reader Value) : Reader Entries :=
  (do
    blanks
    Reader.exactly ['\x7d']
    return []) <|> do
    let pairs ← Reader.separated (pair value) (Reader.exactly [','])
    Reader.exactly ['\x7d']
    Entries.ofPairs? pairs

def plain : Reader Value := do
  match ← Reader.peek with
  | some 't' =>
    Reader.exactly ['t', 'r', 'u', 'e']
    return .boolean true
  | some 'f' =>
    Reader.exactly ['f', 'a', 'l', 's', 'e']
    return .boolean false
  | some '"' | some '\'' => return .text (← quotedText)
  | _ =>
    (do return .moment (← moment)) <|> (do return .real (← real))
      <|> do return .integer (← integer)

/-- A value in which lists and tables nest at most `depth` deep. -/
def value : (depth : Nat) → Reader Value
  | 0 => plain
  | depth + 1 => do
    match ← Reader.peek with
    | some '[' =>
      Reader.exactly ['[']
      return .list (← items (value depth))
    | some '\x7b' =>
      Reader.exactly ['\x7b']
      return .table .braces (← members (value depth))
    | _ => plain

def maxDepth : Nat := 79

inductive Line where
  | header (path : List String) (key : String)
  | nextHeader (path : List String) (key : String)
  | entry (pair : Pair)

/-- Takes what may follow on a line, and its end. -/
def restOfLine : Reader Unit := do
  blanks
  let _ ← Reader.optional comment
  match ← Reader.peek with
  | none => pure ()
  | some _ => lineBreak

def header : Reader Line :=
  (do
    Reader.exactly ['[', '[']
    let (path, key) ← dottedKey
    Reader.exactly [']', ']']
    restOfLine
    return .nextHeader path key) <|> do
    Reader.exactly ['[']
    let (path, key) ← dottedKey
    Reader.exactly [']']
    restOfLine
    return .header path key

/-- The lines up to the end of the text. -/
def lines : Reader (List Line) := fun cs =>
  let rec go : Nat → Reader (List Line)
    | 0 => failure
    | n + 1 => do
      blanks
      match ← Reader.peek with
      | none => return []
      | some '[' =>
        let line ← header
        return line :: (← go n)
      | some c =>
        if c = '#' ∨ c = '\n' ∨ c = '\r' then
          restOfLine
          go n
        else
          let p ← pair (value maxDepth)
          restOfLine
          return .entry p :: (← go n)
  go (cs.length + 1) cs

/-- A file that is being read: its tables, and the keys that lead to the open one. -/
structure Draft where
  tables : Entries
  place : List String

def Draft.add? (d : Draft) : Line → Option Draft
  | .header path key => do return ⟨← d.tables.open? path key, path ++ [key]⟩
  | .nextHeader path key => do return ⟨← d.tables.openNext? path key, path ++ [key]⟩
  | .entry p => do
    return { d with tables := ← d.tables.within (·.addDotted? p.key p.value p.path) d.place }

def dropMark : List Char → List Char
  | '\ufeff' :: cs => cs
  | cs => cs

def parse? (text : String) : Option Entries := do
  let (lines, _) ← lines (dropMark text.toList)
  return (← lines.foldlM Draft.add? ⟨[], []⟩).tables

end SoapRelay.Toml
