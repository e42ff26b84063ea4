import SoapRelay.Keys.Certificate
import SoapRelay.Keys.Protection

/-!
# Archives of keys and certificates

An archive holds a private key, certificates or both, in parts that a password may protect. A
checksum that is keyed with the password stands beside them, so a wrong password is told from a right
one before anything is decrypted.
-/

namespace SoapRelay

open Der (Element)

namespace Archive

/-! ### Parts -/

/-- What archives hold. A key that cannot be read matters only if it is the first one. -/
inductive Item where
  | key (k? : Option PrivateKey)
  | certificate (c : Certificate)

/-- The element in a field that a number marks. -/
def marked? (fields : List Element) (n : UInt8) : Option Element := do
  firstElement? (← markedField? fields (Der.Tag.marked n))

def certificateIn? (value : Element) : Option (Option Certificate) := do
  match ← value.items? with
  | kind :: fields =>
    if (← kind.objectId?) = "1.2.840.113549.1.9.22.1" then
      return some (← Certificate.ofBytes? (← (← marked? fields 0).octets?))
    else return none
  | [] => none

def keyIn? (password : Password) (value : Element) : Option PrivateKey := do
  match ← value.items? with
  | [algorithm, cipher] =>
    PrivateKey.ofBytes? (← Protection.decrypt? password algorithm (← cipher.octets?))
  | _ => none

/-- The items in a sequence of bags. A bag may hold bags again, at most `depth` deep; bags of other
kinds are left out. -/
def items? (password : Password) : (depth : Nat) → Element → Option (List Item)
  | 0, _ => none
  | depth + 1, bags => do
    let items ← (← bags.items?).mapM fun bag => do
      match ← bag.items? with
      | kind :: fields =>
        let value ← marked? fields 0
        match ← kind.objectId? with
        | "1.2.840.113549.1.12.10.1.1" => return [Item.key (PrivateKey.ofElement? value)]
        | "1.2.840.113549.1.12.10.1.2" => return [Item.key (keyIn? password value)]
        | "1.2.840.113549.1.12.10.1.3" => return (← certificateIn? value).toList.map Item.certificate
        | "1.2.840.113549.1.12.10.1.6" => items? password depth value
        | _ => return []
      | [] => none
    return items.flatten

def maxDepth : Nat := 16

/-- The bytes of a part that no password protects. -/
def openPart? (e : Element) : Option (List UInt8) := do
  match ← e.items? with
  | kind :: fields =>
    if (← kind.objectId?) = "1.2.840.113549.1.7.1" then (← marked? fields 0).octets? else none
  | [] => none

/-- The bytes of a part, decrypted where it is protected. Parts of other kinds have none. -/
def part? (password : Password) (e : Element) : Option (Option (List UInt8)) := do
  match ← e.items? with
  | kind :: fields =>
    match ← kind.objectId? with
    | "1.2.840.113549.1.7.1" => return some (← openPart? e)
    | "1.2.840.113549.1.7.6" =>
      match ← (← marked? fields 0).items? with
      | [_, sealed] =>
        match ← sealed.items? with
        | [_, algorithm, cipher] =>
          if cipher.tag = Der.Tag.markedBytes 0 then
            return some (← Protection.decrypt? password algorithm cipher.body)
          else none
        | _ => none
      | _ => none
    | _ => return none
  | [] => none

def contents? (password : Password) (parts : List Element) : Option (List Item) := do
  let items ← parts.mapM fun e => do
    match ← part? password e with
    | some bytes => items? password maxDepth (← firstElement? bytes)
    | none => return []
  return items.flatten

def checks? (checksum : Element) (bytes : List UInt8) (password : Password) : Option Bool := do
  match ← checksum.items? with
  | digest :: salt :: rest =>
    match ← digest.items? with
    | [algorithm, sum] =>
      let d ← Digest.ofObjectId? (← algorithm.algorithm?).1
      let iterations ← match rest with
        | n :: _ => n.natural?
        | [] => pure 1
      let key := password.derive d .checksum (← salt.octets?) iterations d.size
      return hmac d key bytes = (← sum.octets?)
    | _ => none
  | _ => none

end Archive

/-- What is taken from an archive: its first key, the first certificate of that key, and the other
certificates. -/
structure Archive where
  key? : Option PrivateKey
  certificate? : Option Certificate
  others : List Certificate

namespace Archive

def Item.key? : Item → Option (Option PrivateKey)
  | .key k? => some k?
  | .certificate _ => none

def Item.certificate? : Item → Option Certificate
  | .key _ => none
  | .certificate c => some c

/-- Whether a key is that of a certificate. -/
def isOf (k : PrivateKey) (c : Certificate) : Bool :=
  match c.key? with
  | some p => k.belongsTo p
  | none => false

def ofItems? (items : List Item) : Option Archive :=
  let certificates := items.filterMap Item.certificate?
  match items.findSome? Item.key? with
  | none => some ⟨none, none, certificates⟩
  | some none => none
  | some (some k) =>
    match certificates.findIdx? (isOf k) with
    | some i => some ⟨some k, certificates[i]?, certificates.eraseIdx i⟩
    | none => some ⟨some k, none, certificates⟩

/-- Opens an archive with the first form of a password that the checksum takes. An archive without a
checksum is opened without a check. -/
def open? (bytes : List UInt8) (password : String) : Option Archive := do
  match ← (← firstElement? bytes).items? with
  | version :: contents :: rest =>
    let _ ← version.natural?
    let inner ← openPart? contents
    let forms := Password.forms password
    let taken ← match rest with
      | checksum :: _ => forms.filterM (checks? checksum inner)
      | [] => pure forms
    ofItems? (← contents? (← taken.head?) (← (← firstElement? inner).items?))
  | _ => none

end Archive

end SoapRelay
