import SoapRelay.Crypto.Sha1
import SoapRelay.Signature.Algorithm

/-!
# Digests, keyed digests and derived keys
-/

namespace SoapRelay

namespace Digest

def run : Digest → List UInt8 → List UInt8
  | .sha1 => Sha1.digest
  | .sha256 => Sha2.sha256
  | .sha384 => Sha2.sha384
  | .sha512 => Sha2.sha512

def size : Digest → Nat
  | .sha1 => 20
  | .sha256 => 32
  | .sha384 => 48
  | .sha512 => 64

def blockSize : Digest → Nat
  | .sha1 | .sha256 => 64
  | .sha384 | .sha512 => 128

end Digest

def xorBytes (xs ys : List UInt8) : List UInt8 :=
  List.zipWith (· ^^^ ·) xs ys

def hmac (d : Digest) (key message : List UInt8) : List UInt8 :=
  let key := if key.length > d.blockSize then d.run key else key
  let key := key ++ List.replicate (d.blockSize - key.length) 0
  let inner := d.run (key.map (· ^^^ 0x36) ++ message)
  d.run (key.map (· ^^^ 0x5c) ++ inner)

namespace Pbkdf2

/-- Digests `u` again and again and adds up the results. -/
def iterate (d : Digest) (password : List UInt8) : Nat → List UInt8 → List UInt8 → List UInt8
  | 0, _, sum => sum
  | n + 1, u, sum =>
    let u := hmac d password u
    iterate d password n u (xorBytes sum u)

def block (d : Digest) (password salt : List UInt8) (iterations index : Nat) : List UInt8 :=
  let u := hmac d password (salt ++ Octets.ofNat 4 index)
  iterate d password (iterations - 1) u u

def derive (d : Digest) (password salt : List UInt8) (iterations length : Nat) : List UInt8 :=
  let count := (length + d.size - 1) / d.size
  ((List.range count).flatMap fun i => block d password salt iterations (i + 1)).take length

end Pbkdf2

end SoapRelay
