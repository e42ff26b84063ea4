import SoapRelay.Crypto.Curve
import SoapRelay.Crypto.Der

/-!
# Elliptic curve signatures

A signature is a pair of numbers below the order of the curve, written as a sequence of two
integers in canonical form. The nonce of a signature is derived from the key and the content, so
signing is a function.
-/

namespace SoapRelay.Ecdsa

structure PublicKey where
  curve : Curve
  x : Nat
  y : Nat
  deriving DecidableEq

structure PrivateKey where
  curve : Curve
  scalar : Nat
  deriving DecidableEq

structure Signature where
  r : Nat
  s : Nat
  deriving DecidableEq, Repr

namespace Signature

def write (s : Signature) : List UInt8 :=
  Der.write (.ofItems [.ofNatural s.r, .ofNatural s.s])

/-- Reads exactly what `write` writes. -/
def read? (bytes : List UInt8) : Option Signature := do
  let (e, _) ← Der.read? bytes
  match ← e.items? with
  | [r, s] =>
    let sig : Signature := ⟨← r.natural?, ← s.natural?⟩
    if sig.write = bytes then some sig else none
  | _ => none

end Signature

/-- The leading bits of a byte string, as many as the order has, as a number. -/
def leadingBits (order : Nat) (bytes : List UInt8) : Nat :=
  let excess := 8 * bytes.length - (order.log2 + 1)
  Octets.toNat bytes >>> excess

def inverse (c : Curve) (n : Nat) : Nat :=
  powMod n (c.order - 2) c.order

/-- Whether a signature is one of some content. There is no telling if it is not written as one, or if the
point that its numbers lead to has no coordinates. -/
def check? (k : PublicKey) (d : Digest) (content signature : List UInt8) : Option Bool := do
  let ⟨r, s⟩ ← Signature.read? signature
  let n := k.curve.order
  if 0 < r ∧ r < n ∧ 0 < s ∧ s < n then
    let z := leadingBits n (d.run content)
    let w := inverse k.curve s
    let sum := k.curve.add (k.curve.multiply (z * w % n) k.curve.base)
      (k.curve.multiply (r * w % n) ⟨k.x, k.y, 1⟩)
    let (x, _) ← k.curve.coordinates? sum
    return x % n = r
  else return false

/-- The signature with a given nonce, unless one of its numbers would be zero. -/
def signWith? (k : PrivateKey) (z nonce : Nat) : Option Signature := do
  let n := k.curve.order
  let (x, _) ← k.curve.coordinates? (k.curve.multiply nonce k.curve.base)
  let r := x % n
  let s := inverse k.curve nonce * (z + r * k.scalar) % n
  if r = 0 ∨ s = 0 then none else some ⟨r, s⟩

/-- A keyed digest that draws numbers. -/
structure Source where
  key : List UInt8
  value : List UInt8

def Source.step (d : Digest) (s : Source) (seed : List UInt8) : Source :=
  let key := hmac d s.key (s.value ++ seed)
  ⟨key, hmac d key s.value⟩

/-- Enough blocks for `length` bytes, and the source after them. -/
def Source.draw (d : Digest) (s : Source) : Nat → List UInt8 × Source
  | 0 => ([], s)
  | count + 1 =>
    let value := hmac d s.key s.value
    let (rest, last) := Source.draw d ⟨s.key, value⟩ count
    (value ++ rest, last)

/-- Tries nonces from a source until one serves. -/
def search? (k : PrivateKey) (d : Digest) (z : Nat) : (tries : Nat) → Source → Option Signature
  | 0, _ => none
  | tries + 1, source =>
    let length := Octets.size k.curve.order
    let (bytes, next) := source.draw d ((length + d.size - 1) / d.size)
    let nonce := leadingBits k.curve.order (bytes.take length)
    let candidate := if 0 < nonce ∧ nonce < k.curve.order then signWith? k z nonce else none
    candidate.or (search? k d z tries (next.step d [0]))

def sign? (k : PrivateKey) (d : Digest) (content : List UInt8) : Option (List UInt8) :=
  let length := Octets.size k.curve.order
  let z := leadingBits k.curve.order (d.run content)
  let seed := Octets.ofNat length k.scalar ++ Octets.ofNat length (z % k.curve.order)
  let start : Source := ⟨List.replicate d.size 0, List.replicate d.size 1⟩
  let source := (start.step d (0 :: seed)).step d (1 :: seed)
  (search? k d z 100 source).map Signature.write

def PrivateKey.toPublic? (k : PrivateKey) : Option PublicKey :=
  (k.curve.coordinates? (k.curve.multiply k.scalar k.curve.base)).map fun (x, y) => ⟨k.curve, x, y⟩

end SoapRelay.Ecdsa
