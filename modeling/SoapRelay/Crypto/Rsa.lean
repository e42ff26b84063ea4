import SoapRelay.Crypto.Digest

/-!
# RSA signatures with deterministic padding

The signed block is `00 01 FF … FF 00` followed by the named digest, as long as the modulus. It is
rebuilt for checking and compared as a whole, so nothing in it can vary, and a signature is read as
a number below the modulus of exactly that many bytes.
-/

namespace SoapRelay

/-- The power `b ^ e` modulo `m`, by repeated squaring. -/
def powMod (b e m : Nat) : Nat :=
  if e = 0 then 1 % m
  else
    let root := powMod (b * b % m) (e / 2) m
    if e % 2 = 1 then b * root % m else root
termination_by e
decreasing_by exact Nat.div_lt_self (Nat.pos_of_ne_zero ‹_›) (by decide)

theorem powMod_eq (b e m : Nat) : powMod b e m = Nat.pow b e % m := by
  induction e using Nat.strongRecOn generalizing b with
  | _ e ih =>
    rw [powMod]
    by_cases h : e = 0
    · simp [h]
    · have hlt : e / 2 < e := Nat.div_lt_self (Nat.pos_of_ne_zero h) (by decide)
      have half : Nat.pow (b * b % m) (e / 2) % m = Nat.pow b (2 * (e / 2)) % m := by
        rw [Nat.pow_eq, Nat.pow_eq, ← Nat.pow_mod, Nat.pow_mul, Nat.pow_two]
      simp only [h, if_false, ih _ hlt, half]
      by_cases odd : e % 2 = 1
      · have whole : (2 * (e / 2)).succ = e := by omega
        have next : Nat.pow b (2 * (e / 2)).succ = Nat.pow b (2 * (e / 2)) * b := rfl
        rw [whole] at next
        rw [if_pos odd, Nat.mul_mod_mod, Nat.mul_comm, next]
      · have whole : 2 * (e / 2) = e := by omega
        rw [if_neg odd, whole]

/-- The bytes that name a digest and stand before it in the signed block. -/
def Digest.label : Digest → List UInt8
  | .sha1 =>
    [0x30, 0x21, 0x30, 0x09, 0x06, 0x05, 0x2b, 0x0e, 0x03, 0x02, 0x1a, 0x05, 0x00, 0x04, 0x14]
  | .sha256 =>
    [0x30, 0x31, 0x30, 0x0d, 0x06, 0x09, 0x60, 0x86, 0x48, 0x01, 0x65, 0x03, 0x04, 0x02, 0x01,
      0x05, 0x00, 0x04, 0x20]
  | .sha384 =>
    [0x30, 0x41, 0x30, 0x0d, 0x06, 0x09, 0x60, 0x86, 0x48, 0x01, 0x65, 0x03, 0x04, 0x02, 0x02,
      0x05, 0x00, 0x04, 0x30]
  | .sha512 =>
    [0x30, 0x51, 0x30, 0x0d, 0x06, 0x09, 0x60, 0x86, 0x48, 0x01, 0x65, 0x03, 0x04, 0x02, 0x03,
      0x05, 0x00, 0x04, 0x40]

namespace Rsa

structure PublicKey where
  modulus : Nat
  exponent : Nat
  deriving DecidableEq, Repr

structure PrivateKey where
  modulus : Nat
  publicExponent : Nat
  exponent : Nat
  deriving DecidableEq, Repr

def PrivateKey.toPublic (k : PrivateKey) : PublicKey :=
  ⟨k.modulus, k.publicExponent⟩

/-- The length of a signature under a modulus, in bytes. -/
def blockLength (modulus : Nat) : Nat :=
  Octets.size modulus

/-- The block that is signed for some content. At least eight bytes of padding must fit. -/
def signedBlock? (d : Digest) (length : Nat) (content : List UInt8) : Option (List UInt8) :=
  let named := d.label ++ d.run content
  if length < named.length + 11 then none
  else some (0x00 :: 0x01 :: (List.replicate (length - named.length - 3) 0xFF ++ 0x00 :: named))

/-- Fails if the modulus is too short for the digest. -/
def sign? (k : PrivateKey) (d : Digest) (content : List UInt8) : Option (List UInt8) :=
  let length := blockLength k.modulus
  (signedBlock? d length content).map fun block =>
    Octets.ofNat length (powMod (Octets.toNat block) k.exponent k.modulus)

def verify (k : PublicKey) (d : Digest) (content signature : List UInt8) : Bool :=
  let length := blockLength k.modulus
  let s := Octets.toNat signature
  match signedBlock? d length content with
  | none => false
  | some block =>
    signature.length = length && s < k.modulus
      && Octets.ofNat length (powMod s k.exponent k.modulus) = block

end Rsa

end SoapRelay
