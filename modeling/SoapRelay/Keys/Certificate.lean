import SoapRelay.Identity
import SoapRelay.Keys.AttributeName
import SoapRelay.Keys.Reading

/-!
# Certificates

What is read of a certificate: the attributes of its subject, in order, and its public key.
-/

namespace SoapRelay

open Der (Element)

structure Certificate where
  /-- Short names and values of the attributes of the subject. -/
  subject : List (String × String)
  /-- The key, unless it is of no known kind. -/
  key? : Option PublicKey
  bytes : List UInt8
  deriving DecidableEq

namespace Certificate

/-- Text in one, two or four bytes a character. -/
def wideText? (width : Nat) (bytes : List UInt8) : Option String :=
  if bytes.length % width = 0 then
    let codes := (Octets.blocks width bytes).map Octets.toNat
    if codes.all fun n => n.isValidChar then some (String.ofList (codes.map Char.ofNat)) else none
  else none

/-- The text of an attribute value, by the kind of string it is. -/
def valueText? (e : Element) : Option String :=
  match e.tag.toNat with
  | 12 => Utf8.text? e.body
  | 18 | 19 | 20 | 22 | 23 | 24 | 26 => wideText? 1 e.body
  | 28 => wideText? 4 e.body
  | 30 => wideText? 2 e.body
  | _ => none

def attribute? (e : Element) : Option (String × Option String) := do
  match ← e.items? with
  | [name, value] => some (AttributeName.shortOf (← name.objectId?), valueText? value)
  | _ => none

/-- The attributes of a name; those whose value is no text are left out. -/
def attributes? (e : Element) : Option (List (String × String)) := do
  let sets ← (← e.items?).mapM (·.children? Der.Tag.set)
  let all ← sets.flatten.mapM attribute?
  some (all.filterMap fun (name, value) => value.map fun v => (name, v))

def ofElement? (bytes : List UInt8) (e : Element) : Option Certificate := do
  match ← e.items? with
  | [body, _, _] =>
    let fields ← body.items?
    let fields := if fields.head?.map (·.tag) = some (Der.Tag.marked 0) then fields.tail else fields
    match fields with
    | _serial :: _algorithm :: _issuer :: _validity :: subject :: key :: _ =>
      some ⟨← attributes? subject, PublicKey.ofElement? key, bytes⟩
    | _ => none
  | _ => none

def ofBytes? (bytes : List UInt8) : Option Certificate := do
  let (e, rest) ← Der.read? bytes
  ofElement? (bytes.take (bytes.length - rest.length)) e

def labels : List Pem.Line :=
  ["CERTIFICATE", "X509 CERTIFICATE"].map Utf8.bytes

def ofPem? (bytes : List UInt8) : Option Certificate :=
  match Pem.nextLabelled labels (Pem.lines bytes) with
  | .block b _ => do ofBytes? (← b.bytes?)
  | _ => none

/-- The certificates of the blocks in some lines; one that is broken spoils them all. -/
def allOfLines? (ls : List Pem.Line) : Option (List Certificate) :=
  match _h : Pem.nextLabelled labels ls with
  | .nothing => some []
  | .broken => none
  | .block b rest => do
    let c ← ofBytes? (← b.bytes?)
    let cs ← allOfLines? rest
    some (c :: cs)
termination_by ls.length
decreasing_by exact Pem.nextLabelled_rest _h

def allOfPem? (bytes : List UInt8) : Option (List Certificate) :=
  allOfLines? (Pem.lines bytes)

def subjectText (c : Certificate) : String :=
  Identity.subjectText c.subject

end Certificate

end SoapRelay
