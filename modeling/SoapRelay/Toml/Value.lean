/-!
# Values of a configuration file

A table remembers how it was opened, because that decides what may still be added to it: a header
adds below any table that has no braces, and a dotted key only to tables that dotted keys opened.
-/

namespace SoapRelay.Toml

/-- How a table was opened. -/
inductive Opening where
  /-- By a header of its own, of which there is only one. -/
  | header
  /-- On the way to the table of a longer header. -/
  | passed
  /-- By a dotted key. -/
  | dotted
  /-- Between braces. -/
  | braces
  deriving DecidableEq, Repr

inductive Value where
  | text (s : String)
  | integer (n : Int64)
  | boolean (b : Bool)
  /-- A real number, as it is written. -/
  | real (spelling : String)
  /-- A date, a time of day or both, as they are written. -/
  | moment (spelling : String)
  | list (items : List Value)
  | table (opening : Opening) (entries : List (String × Value))
  /-- The tables under one repeated header, the last of which is open. -/
  | tables (earlier : List (List (String × Value))) (last : List (String × Value))

abbrev Entries := List (String × Value)

namespace Entries

def get? (t : Entries) (key : String) : Option Value :=
  (t.find? (·.1 = key)).map (·.2)

/-- Gives a key its value, in the place of its old value or at the end. -/
def put : Entries → String → Value → Entries
  | [], key, v => [(key, v)]
  | e :: rest, key, v => if e.1 = key then (key, v) :: rest else e :: put rest key v

def add? (t : Entries) (key : String) (v : Value) : Option Entries :=
  if (t.get? key).isSome then none else some (t ++ [(key, v)])

/-- Changes the table that the keys of a header lead to, and opens the tables that are missing on
the way. Repeated tables are entered by their last one. -/
def within (change : Entries → Option Entries) : Entries → List String → Option Entries
  | t, [] => change t
  | t, key :: path =>
    match t.get? key with
    | none => do return t.put key (.table .passed (← within change [] path))
    | some (.table .braces _) => none
    | some (.table opening inner) => do
      return t.put key (.table opening (← within change inner path))
    | some (.tables earlier last) => do
      return t.put key (.tables earlier (← within change last path))
    | some _ => none

/-- Gives a key its value in the table that the keys before it lead to. -/
def addDotted? (key : String) (v : Value) : Entries → List String → Option Entries
  | t, [] => t.add? key v
  | t, first :: path =>
    match t.get? first with
    | none => do return t.put first (.table .dotted (← addDotted? key v [] path))
    | some (.table .dotted inner) => do
      return t.put first (.table .dotted (← addDotted? key v inner path))
    | some (.table .passed inner) =>
      if path = [] then none
      else do return t.put first (.table .passed (← addDotted? key v inner path))
    | some (.tables earlier last) =>
      if path = [] then none
      else do return t.put first (.tables earlier (← addDotted? key v last path))
    | some _ => none

def open? (t : Entries) (path : List String) (key : String) : Option Entries :=
  t.within (fun t =>
    match t.get? key with
    | none => some (t.put key (.table .header []))
    | some (.table .passed inner) => some (t.put key (.table .header inner))
    | some _ => none) path

/-- Opens one more table under a repeated header. -/
def openNext? (t : Entries) (path : List String) (key : String) : Option Entries :=
  t.within (fun t =>
    match t.get? key with
    | none => some (t.put key (.tables [] []))
    | some (.tables earlier last) => some (t.put key (.tables (earlier ++ [last]) []))
    | some _ => none) path

end Entries

end SoapRelay.Toml
