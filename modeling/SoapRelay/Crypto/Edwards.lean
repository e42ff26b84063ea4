import SoapRelay.Crypto.Curve
import SoapRelay.Crypto.Sha2

/-!
# Keys on a twisted Edwards curve

The curve `y² - x² = 1 + d·x²·y²` over the prime field of `2²⁵⁵ - 19`. Its sum formula holds for all
points, so doubling is a sum. A private key is a seed; its public key is a multiple of the base point,
written as one coordinate and the parity of the other.
-/

namespace SoapRelay.Edwards

def p : Nat := Nat.pow 2 255 - 19

def d : Nat := 37095705934669439343138083508754565189542113879843219016388785533085940283555

/-- A point as `(x / z, y / z)`. -/
structure Point where
  x : Nat
  y : Nat
  z : Nat
  deriving DecidableEq, Repr

def base : Point where
  x := 15112221349535400772501151409588531511454012693041857206046113283949847762202
  y := 46316835694926478169428394003475163141307993866256225615783033603165251855960
  z := 1

def Point.neutral : Point := ⟨0, 1, 1⟩

def add (q r : Point) : Point :=
  let zz := q.z * r.z % p
  let square := zz * zz % p
  let xx := q.x * r.x % p
  let yy := q.y * r.y % p
  let e := d * xx % p * yy % p
  let f := (square + (p - e)) % p
  let g := (square + e) % p
  let cross := ((q.x + q.y) * (r.x + r.y) + (p - xx) + (p - yy)) % p
  ⟨zz * f % p * cross % p, zz * g % p * (yy + xx) % p, f * g % p⟩

def multiply (n : Nat) (q : Point) : Point :=
  if n = 0 then .neutral
  else
    let half := multiply (n / 2) q
    let double := add half half
    if n % 2 = 1 then add double q else double
termination_by n
decreasing_by exact Nat.div_lt_self (Nat.pos_of_ne_zero ‹_›) (by decide)

/-- A point in 32 bytes, least significant first. -/
def Point.bytes (q : Point) : List UInt8 :=
  let w := powMod q.z (p - 2) p
  let x := q.x * w % p
  let y := q.y * w % p
  (Octets.ofNat 32 (y + x % 2 * Nat.pow 2 255)).reverse

/-- The factor that a seed stands for: a multiple of eight with its highest bit at a fixed place. -/
def factor (seed : List UInt8) : Nat :=
  let n := Octets.toNat ((Sha2.sha512 seed).take 32).reverse
  n % Nat.pow 2 254 / 8 * 8 + Nat.pow 2 254

def publicKey (seed : List UInt8) : List UInt8 :=
  (multiply (factor seed) base).bytes

end SoapRelay.Edwards
