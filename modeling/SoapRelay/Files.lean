import SoapRelay.Text.Utf8

/-!
# A tree of files

Directories and files below a working directory, and what looking up a path answers: the contents,
the names in a directory, or why there are none. A path is walked part by part, so a part that is a
file has nothing below it.
-/

namespace SoapRelay

inductive FileError where
  | notFound
  | notDirectory
  | isDirectory
  | notText
  | zeroInPath
  | nameTooLong
  deriving DecidableEq, Repr

def FileError.message : FileError → String
  | .notFound => "No such file or directory (os error 2)"
  | .notDirectory => "Not a directory (os error 20)"
  | .isDirectory => "Is a directory (os error 21)"
  | .notText => "stream did not contain valid UTF-8"
  | .zeroInPath => "file name contained an unexpected NUL byte"
  | .nameTooLong => "File name too long (os error 36)"

/-- Files by the parts of their paths, and the directories that hold none. -/
structure Files where
  contents : List (List String × List UInt8)
  folders : List (List String)

namespace Files

def empty : Files := ⟨[], []⟩

def parts (path : String) : List String :=
  path.splitOn "/"

inductive Entry where
  | file (bytes : List UInt8)
  | folder
  deriving DecidableEq

/-- What stands at a place. The parents of everything are directories. -/
def entry? (t : Files) (place : List String) : Option Entry :=
  match t.contents.find? (·.1 = place) with
  | some (_, bytes) => some (.file bytes)
  | none =>
    if place = [] ∨ t.folders.any (place.isPrefixOf ·) ∨ t.contents.any (place.isPrefixOf ·.1) then
      some .folder
    else none

def walk (t : Files) : (place : List String) → List String → Except FileError Entry
  | place, [] =>
    match t.entry? place with
    | some e => .ok e
    | none => .error .notFound
  | place, part :: rest =>
    match t.entry? place with
    | none => .error .notFound
    | some (.file _) => .error .notDirectory
    | some .folder =>
      if part.utf8ByteSize > 255 then .error .nameTooLong
      else if part = "" ∨ part = "." then t.walk place rest
      else if part = ".." then t.walk place.dropLast rest
      else t.walk (place ++ [part]) rest

def lookup (t : Files) (path : String) : Except FileError Entry :=
  if path.contains '\x00' then .error .zeroInPath
  else if path = "" then .error .notFound
  else if path.startsWith "/" then
    if (parts path).all (· = "") then .ok .folder else .error .notFound
  else t.walk [] (parts path)

def read (t : Files) (path : String) : Except FileError (List UInt8) := do
  match ← t.lookup path with
  | .file bytes => return bytes
  | .folder => throw .isDirectory

def readText (t : Files) (path : String) : Except FileError String := do
  match Utf8.text? (← t.read path) with
  | some s => return s
  | none => throw .notText

/-- The place that a path leads to, once it is known to lead somewhere. -/
def place : (at_ : List String) → List String → List String
  | at_, [] => at_
  | at_, part :: rest =>
    if part = "" ∨ part = "." then place at_ rest
    else if part = ".." then place at_.dropLast rest
    else place (at_ ++ [part]) rest

def namesBelow (t : Files) (p : List String) : List String :=
  let all := t.contents.map (·.1) ++ t.folders
  (all.filterMap fun q => if p.isPrefixOf q then (q.drop p.length).head? else none).eraseDups

def list (t : Files) (path : String) : Except FileError (List String) := do
  match ← t.lookup path with
  | .file _ => throw .notDirectory
  | .folder => return if path.startsWith "/" then [] else t.namesBelow (place [] (parts path))

/-- Adds a file, or an empty directory if the name ends in a slash. -/
def add (t : Files) (name : String) (bytes : List UInt8) : Files :=
  if name.endsWith "/" then { t with folders := place [] (parts name) :: t.folders }
  else { t with contents := (place [] (parts name), bytes) :: t.contents }

end Files

/-- What reading a file and listing a directory come to. The names in a directory are octets, of no
encoding and in no order that can be relied on. -/
structure Disk where
  read : String → Except FileError (List UInt8)
  list : String → Except FileError (List (List UInt8))

def Files.disk (t : Files) : Disk :=
  ⟨t.read, fun path => (t.list path).map (·.map Utf8.bytes)⟩

instance : Coe Files Disk := ⟨Files.disk⟩

end SoapRelay
