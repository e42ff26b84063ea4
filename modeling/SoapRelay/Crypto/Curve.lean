import SoapRelay.Crypto.Rsa

/-!
# Elliptic curves

Curves `y² = x³ + a·x + b` over a prime field, with a base point of prime order. All supported
primes leave the remainder three modulo four, so a square root is a power. Sums are computed in
coordinates `(x / z², y / z³)`, which need no division before the end.
-/

namespace SoapRelay

structure Curve where
  p : Nat
  a : Nat
  b : Nat
  baseX : Nat
  baseY : Nat
  order : Nat
  deriving DecidableEq

namespace Curve

def p256 : Curve where
  p := 0xffffffff00000001000000000000000000000000ffffffffffffffffffffffff
  a := 0xffffffff00000001000000000000000000000000fffffffffffffffffffffffc
  b := 0x5ac635d8aa3a93e7b3ebbd55769886bc651d06b0cc53b0f63bce3c3e27d2604b
  baseX := 0x6b17d1f2e12c4247f8bce6e563a440f277037d812deb33a0f4a13945d898c296
  baseY := 0x4fe342e2fe1a7f9b8ee7eb4a7c0f9e162bce33576b315ececbb6406837bf51f5
  order := 0xffffffff00000000ffffffffffffffffbce6faada7179e84f3b9cac2fc632551

def p384 : Curve where
  p := 0xfffffffffffffffffffffffffffffffffffffffffffffffffffffffffffffffeffffffff0000000000000000ffffffff
  a := 0xfffffffffffffffffffffffffffffffffffffffffffffffffffffffffffffffeffffffff0000000000000000fffffffc
  b := 0xb3312fa7e23ee7e4988e056be3f82d19181d9c6efe8141120314088f5013875ac656398d8a2ed19d2a85c8edd3ec2aef
  baseX := 0xaa87ca22be8b05378eb1c71ef320ad746e1d3b628ba79b9859f741e082542a385502f25dbf55296c3a545e3872760ab7
  baseY := 0x3617de4a96262c6f5d9e98bf9292dc29f8f41dbd289a147ce9da3113b5f0b8c00a60b1ce1d7e819d7a431d7c90ea0e5f
  order := 0xffffffffffffffffffffffffffffffffffffffffffffffffc7634d81f4372ddf581a0db248b0a77aecec196accc52973

def p521 : Curve where
  p := Nat.pow 2 521 - 1
  a := Nat.pow 2 521 - 4
  b := 0x0051953eb9618e1c9a1f929a21a0b68540eea2da725b99b315f3b8b489918ef109e156193951ec7e937b1652c0bd3bb1bf073573df883d2c34f1ef451fd46b503f00
  baseX := 0x00c6858e06b70404e9cd9e3ecb662395b4429c648139053fb521f828af606b4d3dbaa14b5e77efe75928fe1dc127a2ffa8de3348b3c1856a429bf97e7e31c2e5bd66
  baseY := 0x011839296a789a3bc0045c8a5fb42c7d1bd998f54449579b446817afbd17273e662c97ee72995ef42640c550b9013fad0761353c7086a272c24088be94769fd16650
  order := 0x1fffffffffffffffffffffffffffffffffffffffffffffffffffffffffffffffffa51868783bf2f966b7fcc0148f709a5d03bb5c9b8899c47aebb6fb71e91386409

def k256 : Curve where
  p := 0xfffffffffffffffffffffffffffffffffffffffffffffffffffffffefffffc2f
  a := 0
  b := 7
  baseX := 0x79be667ef9dcbbac55a06295ce870b07029bfcdb2dce28d959f2815b16f81798
  baseY := 0x483ada7726a3c4655da4fbfc0e1108a8fd17b448a68554199c47d08ffb10d4b8
  order := 0xfffffffffffffffffffffffffffffffebaaedce6af48a03bbfd25e8cd0364141

def fieldLength (c : Curve) : Nat :=
  Octets.size c.p

def orderBits (c : Curve) : Nat :=
  c.order.log2 + 1

def sub (c : Curve) (x y : Nat) : Nat :=
  (x + (c.p - y % c.p)) % c.p

def contains (c : Curve) (x y : Nat) : Bool :=
  x < c.p && y < c.p && y * y % c.p = (x * x % c.p * x + c.a * x + c.b) % c.p

/-- A root of `y² = x³ + a·x + b` of the given parity. -/
def lift? (c : Curve) (x : Nat) (odd : Bool) : Option Nat :=
  if x < c.p then
    let square := (x * x % c.p * x + c.a * x + c.b) % c.p
    let root := powMod square ((c.p + 1) / 4) c.p
    if root * root % c.p = square then
      let y := if (root % 2 == 1) = odd then root else c.sub 0 root
      if (y % 2 == 1) = odd then some y else none
    else none
  else none

/-- A point as `(x / z², y / z³)`; the point at infinity has `z = 0`. -/
structure Point where
  x : Nat
  y : Nat
  z : Nat
  deriving DecidableEq, Repr

def Point.infinity : Point := ⟨1, 1, 0⟩

def base (c : Curve) : Point := ⟨c.baseX, c.baseY, 1⟩

def double (c : Curve) (q : Point) : Point :=
  if q.z = 0 ∨ q.y = 0 then .infinity
  else
    let yy := q.y * q.y % c.p
    let s := 4 * q.x * yy % c.p
    let zz := q.z * q.z % c.p
    let m := (3 * (q.x * q.x) + c.a * (zz * zz % c.p)) % c.p
    let x := c.sub (m * m) (2 * s)
    ⟨x, c.sub (m * c.sub s x) (8 * (yy * yy)), 2 * q.y * q.z % c.p⟩

def add (c : Curve) (q r : Point) : Point :=
  if q.z = 0 then r
  else if r.z = 0 then q
  else
    let qq := q.z * q.z % c.p
    let rr := r.z * r.z % c.p
    let u₁ := q.x * rr % c.p
    let u₂ := r.x * qq % c.p
    let s₁ := q.y * (rr * r.z % c.p) % c.p
    let s₂ := r.y * (qq * q.z % c.p) % c.p
    if u₁ = u₂ then
      if s₁ = s₂ then c.double q else .infinity
    else
      let h := c.sub u₂ u₁
      let w := c.sub s₂ s₁
      let hh := h * h % c.p
      let hhh := hh * h % c.p
      let v := u₁ * hh % c.p
      let x := c.sub (w * w) (hhh + 2 * v)
      ⟨x, c.sub (w * c.sub v x) (s₁ * hhh), q.z * r.z % c.p * h % c.p⟩

def multiply (c : Curve) (n : Nat) (q : Point) : Point :=
  if n = 0 then .infinity
  else
    let half := c.double (multiply c (n / 2) q)
    if n % 2 = 1 then c.add half q else half
termination_by n
decreasing_by exact Nat.div_lt_self (Nat.pos_of_ne_zero ‹_›) (by decide)

def coordinates? (c : Curve) (q : Point) : Option (Nat × Nat) :=
  if q.z % c.p = 0 then none
  else
    let w := powMod q.z (c.p - 2) c.p
    let ww := w * w % c.p
    some (q.x * ww % c.p, q.y * (ww * w % c.p) % c.p)

end Curve

end SoapRelay
