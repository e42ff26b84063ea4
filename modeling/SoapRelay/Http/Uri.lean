/-!
# URIs

A URI is absolute (`scheme://authority/path?query`), a path, an authority alone, or `*`. The
fragment is dropped. `parse?` cuts a text into these parts and refuses characters that a part may
not hold; `text` writes the parts again, where the path of an absolute URI is never empty.
-/

namespace SoapRelay

inductive Scheme where
  | http
  | https
  | other (name : String)
  deriving DecidableEq, Repr

def Scheme.name : Scheme → String
  | .http => "http"
  | .https => "https"
  | .other name => name

/-- The parts of a URI. An authority is never empty where there is a scheme, and it is empty where
there is none and a path. -/
structure Uri where
  scheme? : Option Scheme
  authority : String
  path : String
  query? : Option String
  deriving DecidableEq, Repr

namespace Uri

/-- The longest URI, in bytes. -/
def maxLength : Nat := 65534

def maxSchemeLength : Nat := 64

def isSchemeChar (c : Char) : Bool :=
  c.isAlphanum || ['+', '-', '.', '~'].contains c

/-- Whether a text begins with `pattern`, a lower-case text, in any ASCII case. -/
def startsWithAnyCase (pattern text : List Char) : Bool :=
  (text.take pattern.length).map Char.toLower = pattern

/-- Cuts off the scheme and the `://` after it. A scheme of another kind is looked for only in
texts of more than three bytes; `none` means that the scheme is too long. -/
def splitScheme (text : List Char) : Option (Option Scheme × List Char) :=
  if startsWithAnyCase "http://".toList text then some (some .http, text.drop 7)
  else if startsWithAnyCase "https://".toList text then some (some .https, text.drop 8)
  else
    let name := text.takeWhile isSchemeChar
    match text.dropWhile isSchemeChar with
    | ':' :: '/' :: '/' :: rest =>
      if name.isEmpty && rest.isEmpty then some (none, text)
      else if name.length > maxSchemeLength then none
      else some (some (.other (String.ofList name)), rest)
    | _ => some (none, text)

/-- The characters that an authority may hold besides `%`. -/
def isAuthorityChar (c : Char) : Bool :=
  c.isAlphanum || "!$&'()*+,-.:;=@[]_~".toList.contains c

/-- What has been read of an authority. Colons and percent signs count only as long as they may
belong to the host and the port: a user name or a bracketed address before them clears them. -/
structure AuthorityScan where
  colons : Nat := 0
  opened : Bool := false
  closed : Bool := false
  percent : Bool := false
  endsInAt : Bool := false

def AuthorityScan.step (s : AuthorityScan) (c : Char) : Option AuthorityScan :=
  let s := { s with endsInAt := false }
  if c = ':' then
    if s.colons ≥ 8 then none else some { s with colons := s.colons + 1 }
  else if c = '[' then
    if s.percent || s.opened then none else some { s with opened := true }
  else if c = ']' then
    if !s.opened || s.closed then none else some { s with closed := true, colons := 0, percent := false }
  else if c = '@' then some { s with colons := 0, percent := false, endsInAt := true }
  else if c = '%' then some { s with percent := true }
  else if isAuthorityChar c then some s
  else none

/-- Whether an authority is complete: brackets are paired, at most one colon introduces a port,
something follows a user name, and no percent sign is left in the host. -/
def AuthorityScan.accepts (s : AuthorityScan) : Bool :=
  s.opened = s.closed && s.colons ≤ 1 && !s.endsInAt && !s.percent

def endsAuthority (c : Char) : Bool :=
  c = '/' || c = '?' || c = '#'

/-- Cuts off the authority, which ends at the first `/`, `?` or `#`. -/
def splitAuthority (text : List Char) : Option (List Char × List Char) := do
  let authority := text.takeWhile (!endsAuthority ·)
  let scan ← authority.foldlM AuthorityScan.step {}
  if scan.accepts then some (authority, text.dropWhile (!endsAuthority ·)) else none

/-- A path may hold what need not be percent-encoded there, quotes and braces, and any character
from 127 on. -/
def isPathChar (c : Char) : Bool :=
  let n := c.toNat
  n = 0x21 || (0x24 ≤ n && n ≤ 0x3B) || n = 0x3D || (0x40 ≤ n && n ≤ 0x5F) || (0x61 ≤ n && n ≤ 0x7A)
    || n = 0x7C || n ≥ 0x7E || c = '"' || c = '\x7b' || c = '\x7d'

def isQueryChar (c : Char) : Bool :=
  let n := c.toNat
  n = 0x21 || (0x24 ≤ n && n ≤ 0x3B) || n = 0x3D || n ≥ 0x3F

/-- Reads a path and a query and drops the fragment. -/
def splitPath (text : List Char) : Option (List Char × Option (List Char)) :=
  let path := text.takeWhile fun c => c ≠ '?' && c ≠ '#'
  if path.all isPathChar then
    match text.drop path.length with
    | '?' :: rest =>
      let query := rest.takeWhile (· ≠ '#')
      if query.all isQueryChar then some (path, some query) else none
    | _ => some (path, none)
  else none

def parseFull? (text : List Char) : Option Uri := do
  let (scheme?, rest) ← splitScheme text
  let (authority, rest) ← splitAuthority rest
  match scheme? with
  | none => if rest.isEmpty then some ⟨none, String.ofList authority, "", none⟩ else none
  | some scheme =>
    if authority.isEmpty then none
    else
      let (path, query?) ← splitPath rest
      some ⟨some scheme, String.ofList authority, String.ofList path, query?.map String.ofList⟩

def parse? (text : String) : Option Uri :=
  if text.utf8ByteSize > maxLength then none
  else
    match text.toList with
    | [] => none
    | ['*'] => some ⟨none, "", "*", none⟩
    | '/' :: rest => do
      let (path, query?) ← splitPath ('/' :: rest)
      some ⟨none, "", String.ofList path, query?.map String.ofList⟩
    | cs => parseFull? cs

def text (u : Uri) : String :=
  let path := if u.path.isEmpty && u.scheme?.isSome then "/" else u.path
  (match u.scheme? with
    | some scheme => scheme.name ++ "://"
    | none => "")
    ++ u.authority ++ path
    ++ match u.query? with
      | some query => "?" ++ query
      | none => ""

/-- The host: the authority without a user name before the last `@` and without the port. -/
def host? (u : Uri) : Option String :=
  if u.authority.isEmpty then none
  else
    let hostPort := (u.authority.toList.reverse.takeWhile (· ≠ '@')).reverse
    match hostPort with
    | '[' :: _ => some (String.ofList (hostPort.takeWhile (· ≠ ']') ++ [']']))
    | _ => some (String.ofList (hostPort.takeWhile (· ≠ ':')))

/-- Whether calls to the URI go over TLS as they must. -/
def isSecure (u : Uri) : Bool :=
  match u.scheme? with
  | some scheme => scheme.name.toLower = "https"
  | none => true

end Uri

end SoapRelay
