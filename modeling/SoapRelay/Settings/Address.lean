import SoapRelay.Text.Hex

/-!
# Network addresses

An address to listen on: four bytes or eight groups of sixteen bits, and a port. Eight groups are
written between brackets, with the longest run of two zeros or more left out, and may carry the
number of a network interface.
-/

namespace SoapRelay

inductive Address where
  | four (bytes : List Nat) (port : Nat)
  | six (groups : List Nat) (scope : Nat) (port : Nat)
  deriving DecidableEq, Repr

namespace Address

/-! ### Reading -/

/-- The leading digits of a base, as many as there are. -/
def leadingDigits (base : Nat) : List Char → List Nat × List Char
  | [] => ([], [])
  | c :: cs =>
    match Hex.value? c.toNat with
    | some v =>
      if v < base then
        let (ds, rest) := leadingDigits base cs
        (v :: ds, rest)
      else ([], c :: cs)
    | none => ([], c :: cs)

def ofDigits (base : Nat) (ds : List Nat) : Nat :=
  ds.foldl (fun n d => n * base + d) 0

/-- A decimal number below a limit, with any number of zeros in front. -/
def number? (limit : Nat) (cs : List Char) : Option (Nat × List Char) :=
  let (ds, rest) := leadingDigits 10 cs
  let n := ofDigits 10 ds
  if ds = [] ∨ limit ≤ n then none else some (n, rest)

/-- A decimal byte without zeros in front. -/
def byte? (cs : List Char) : Option (Nat × List Char) :=
  let (ds, rest) := leadingDigits 10 cs
  let n := ofDigits 10 ds
  if ds = [] ∨ 3 < ds.length ∨ (ds.head? = some 0 ∧ 1 < ds.length) ∨ 255 < n then none
  else some (n, rest)

/-- A group of one to four hexadecimal digits. -/
def group? (cs : List Char) : Option (Nat × List Char) :=
  let (ds, rest) := leadingDigits 16 cs
  if ds = [] ∨ 4 < ds.length then none else some (ofDigits 16 ds, rest)

def char? (c : Char) : List Char → Option (List Char)
  | d :: rest => if d = c then some rest else none
  | [] => none

/-- Four bytes with points between them. -/
def four? (cs : List Char) : Option (List Nat × List Char) := do
  let (a, cs) ← byte? cs
  let (b, cs) ← byte? (← char? '.' cs)
  let (c, cs) ← byte? (← char? '.' cs)
  let (d, cs) ← byte? (← char? '.' cs)
  return ([a, b, c, d], cs)

/-- What precedes the next of several groups: a colon, but for the first of them. -/
def separator? (isFirst : Bool) (cs : List Char) : Option (List Char) :=
  if isFirst then some cs else char? ':' cs

/-- The two groups that four bytes make. -/
def pairUp : List Nat → List Nat
  | a :: b :: rest => (a * 256 + b) :: pairUp rest
  | _ => []

structure Groups where
  groups : List Nat
  /-- Whether the last two groups were written as four bytes. -/
  endsInBytes : Bool
  rest : List Char

/-- At most `limit` groups with colons between them. The last two may be written as four bytes. -/
def groups (isFirst : Bool) : (limit : Nat) → List Char → Groups
  | 0, cs => ⟨[], false, cs⟩
  | limit + 1, cs =>
    match if limit = 0 then none else separator? isFirst cs >>= four? with
    | some (bytes, rest) => ⟨pairUp bytes, true, rest⟩
    | none =>
      match separator? isFirst cs >>= group? with
      | some (g, rest) =>
        let r := groups false limit rest
        { r with groups := g :: r.groups }
      | none => ⟨[], false, cs⟩

/-- Eight groups. A double colon stands for all that are missing, at least one. -/
def six? (cs : List Char) : Option (List Nat × List Char) := do
  let head := groups true 8 cs
  if head.groups.length = 8 then return (head.groups, head.rest)
  else
    guard !head.endsInBytes
    let rest ← char? ':' (← char? ':' head.rest)
    let tail := groups true (7 - head.groups.length) rest
    let missing := 8 - head.groups.length - tail.groups.length
    return (head.groups ++ List.replicate missing 0 ++ tail.groups, tail.rest)

def port? (cs : List Char) : Option Nat := do
  let (n, rest) ← number? 65536 (← char? ':' cs)
  guard (rest = [])
  return n

def scope? (cs : List Char) : Option (Nat × List Char) := do
  number? 0x100000000 (← char? '%' cs)

def ofText? (text : String) : Option Address :=
  (do
    let (bytes, rest) ← four? text.toList
    return .four bytes (← port? rest)) <|> do
    let (groups, rest) ← six? (← char? '[' text.toList)
    let (scope, rest) := (scope? rest).getD (0, rest)
    return .six groups scope (← port? (← char? ']' rest))

/-! ### Writing -/

def joined (mark : String) (parts : List String) : String :=
  mark.intercalate parts

def hex (n : Nat) : String :=
  String.ofList (Nat.toDigits 16 n)

def groupText (groups : List Nat) : String :=
  joined ":" (groups.map hex)

def zeros (groups : List Nat) : Nat :=
  (groups.takeWhile (· = 0)).length

/-- Where the first longest run of zeros starts, and its length. -/
def longestZeros (groups : List Nat) : Nat × Nat :=
  (List.range groups.length).foldl (fun best i =>
    let n := zeros (groups.drop i)
    if best.2 < n then (i, n) else best) (0, 0)

def sixText (groups : List Nat) : String :=
  match groups with
  | [0, 0, 0, 0, 0, 0xffff, a, b] =>
    "::ffff:" ++ joined "." ([a / 256, a % 256, b / 256, b % 256].map toString)
  | _ =>
    let (start, n) := longestZeros groups
    if n < 2 then groupText groups
    else groupText (groups.take start) ++ "::" ++ groupText (groups.drop (start + n))

def text : Address → String
  | .four bytes port => joined "." (bytes.map toString) ++ ":" ++ toString port
  | .six groups scope port =>
    let scope := if scope = 0 then "" else "%" ++ toString scope
    "[" ++ sixText groups ++ scope ++ "]:" ++ toString port

end Address

end SoapRelay
