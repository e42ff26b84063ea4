import SoapRelay.Keys.Key
import SoapRelay.Keys.Pem

/-!
# Written keys

A private key stands alone in binary form, or in a text block whose label tells the form. A public
key names its algorithm, except in a block of its own label for RSA. Bytes after a complete binary
key do not count.
-/

namespace SoapRelay

open Der (Element)

def KeyKind.ofObjectId? : String → Option KeyKind
  | "1.2.840.113549.1.1.1" => some .rsa
  | "1.2.840.113549.1.1.10" => some .rsaPss
  | "1.2.840.10045.2.1" => some .ec
  | "1.3.101.112" => some .ed25519
  | _ => none

def Curve.ofObjectId? : String → Option Curve
  | "1.2.840.10045.3.1.7" => some .p256
  | "1.3.132.0.34" => some .p384
  | "1.3.132.0.35" => some .p521
  | "1.3.132.0.10" => some .k256
  | _ => none

/-- The point that bytes write down: both coordinates, or one and the parity of the other. -/
def Ecdsa.PublicKey.ofBytes? (curve : Curve) (bytes : List UInt8) : Option Ecdsa.PublicKey :=
  let n := curve.fieldLength
  match bytes with
  | [] => none
  | form :: rest =>
    let x := Octets.toNat (rest.take n)
    let y := Octets.toNat (rest.drop n)
    if form = 4 ∨ form = 6 ∨ form = 7 then
      if rest.length = 2 * n ∧ curve.contains x y ∧ (form = 4 ∨ (form = 7 ↔ y % 2 = 1)) then
        some ⟨curve, x, y⟩
      else none
    else if form = 2 ∨ form = 3 then
      if rest.length = n then (curve.lift? x (form = 3)).map fun y => ⟨curve, x, y⟩ else none
    else none

namespace Rsa

def PublicKey.ofElement? (e : Element) : Option PublicKey := do
  match ← e.items? with
  | [n, e] => some ⟨← n.natural?, ← e.natural?⟩
  | _ => none

def PrivateKey.ofElement? (e : Element) : Option PrivateKey := do
  match ← e.items? with
  | [version, n, e, d, p, q, dp, dq, inverse] =>
    let _ ← version.natural?
    let _ ← [p, q, dp, dq, inverse].mapM Element.natural?
    some ⟨← n.natural?, ← e.natural?, ← d.natural?⟩
  | _ => none

end Rsa

/-- The body of a field that a tag marks. -/
def markedField? (fields : List Element) (tag : UInt8) : Option (List UInt8) :=
  (fields.find? (·.tag = tag)).map (·.body)

def firstElement? (bytes : List UInt8) : Option Element :=
  (Der.read? bytes).map (·.1)

/-- An elliptic curve key as a sequence of the scalar and, marked, the curve and the point. -/
def ecPrivateKey? (named : Option Curve) (e : Element) : Option PrivateKey := do
  match ← e.items? with
  | version :: scalar :: fields =>
    if (← version.natural?) ≠ 1 then none
    let own := do Curve.ofObjectId? (← (← firstElement? (← markedField? fields (Der.Tag.marked 0))).objectId?)
    let curve ← own.or named
    let key : Ecdsa.PrivateKey := ⟨curve, Octets.toNat (← scalar.octets?)⟩
    match markedField? fields (Der.Tag.marked 1) with
    | some point =>
      some (.ec key (← Ecdsa.PublicKey.ofBytes? curve (← (← firstElement? point).bits?)))
    | none => some (.ec key (← key.toPublic?))
  | _ => none

/-- An algorithm with its parameters: the kind of key and, for a curve, the curve. -/
def keyAlgorithm? (e : Element) : Option (KeyKind × Option Curve) := do
  match ← e.items? with
  | name :: parameters =>
    let kind ← KeyKind.ofObjectId? (← name.objectId?)
    match kind, parameters with
    | .ec, p :: _ => some (kind, some (← Curve.ofObjectId? (← p.objectId?)))
    | .ec, [] => none
    | _, _ => some (kind, none)
  | [] => none

namespace PrivateKey

/-- A key with its algorithm: version, algorithm, and the key in the form of its kind. -/
def ofElement? (e : Element) : Option PrivateKey := do
  match ← e.items? with
  | version :: algorithm :: key :: _ =>
    if (← version.natural?) > 1 then none
    let (kind, curve) ← keyAlgorithm? algorithm
    let inner ← firstElement? (← key.octets?)
    match kind with
    | .rsa => (Rsa.PrivateKey.ofElement? inner).map .rsa
    | .rsaPss => (Rsa.PrivateKey.ofElement? inner).map .rsaPss
    | .ec => ecPrivateKey? curve inner
    | .ed25519 => do
      let bytes ← inner.octets?
      if bytes.length = 32 then some (.ed25519 bytes) else none
  | _ => none

def ofBytes? (bytes : List UInt8) : Option PrivateKey := do
  ofElement? (← firstElement? bytes)

def labels : List Pem.Line :=
  ["PRIVATE KEY", "RSA PRIVATE KEY", "EC PRIVATE KEY", "ENCRYPTED PRIVATE KEY", "DSA PRIVATE KEY"].map
    Utf8.bytes

/-- The first key in a text. Protected keys are not read. -/
def ofPem? (bytes : List UInt8) : Option PrivateKey :=
  match Pem.nextLabelled labels (Pem.lines bytes) with
  | .block b _ => do
    let e ← firstElement? (← b.bytes?)
    match Utf8.text? b.label with
    | some "PRIVATE KEY" => ofElement? e
    | some "RSA PRIVATE KEY" => (Rsa.PrivateKey.ofElement? e).map .rsa
    | some "EC PRIVATE KEY" => ecPrivateKey? none e
    | _ => none
  | _ => none

end PrivateKey

namespace PublicKey

def ofElement? (e : Element) : Option PublicKey := do
  match ← e.items? with
  | [algorithm, key] =>
    let (kind, curve) ← keyAlgorithm? algorithm
    let bytes ← key.bits?
    match kind with
    | .rsa => (Rsa.PublicKey.ofElement? (← firstElement? bytes)).map .rsa
    | .rsaPss => (Rsa.PublicKey.ofElement? (← firstElement? bytes)).map .rsaPss
    | .ec => (Ecdsa.PublicKey.ofBytes? (← curve) bytes).map .ec
    | .ed25519 => if bytes.length = 32 then some (.ed25519 bytes) else none
  | _ => none

def ofBytes? (bytes : List UInt8) : Option PublicKey := do
  ofElement? (← firstElement? bytes)

def labels : List Pem.Line :=
  ["PUBLIC KEY", "RSA PUBLIC KEY"].map Utf8.bytes

def ofPem? (bytes : List UInt8) : Option PublicKey :=
  match Pem.nextLabelled labels (Pem.lines bytes) with
  | .block b _ => do
    let e ← firstElement? (← b.bytes?)
    match Utf8.text? b.label with
    | some "PUBLIC KEY" => ofElement? e
    | some "RSA PUBLIC KEY" => (Rsa.PublicKey.ofElement? e).map .rsa
    | _ => none
  | _ => none

end PublicKey

end SoapRelay
