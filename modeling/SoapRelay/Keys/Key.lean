import SoapRelay.Crypto.Ecdsa
import SoapRelay.Crypto.Edwards
import SoapRelay.Signature.Algorithm

/-!
# Keys

Keys of the two families that sign, and of two kinds that are told apart from them and otherwise
not used. A kind is shown by the number it is registered under.
-/

namespace SoapRelay

inductive KeyKind where
  | rsa
  | ec
  | rsaPss
  | ed25519
  deriving DecidableEq, Repr

namespace KeyKind

def number : KeyKind → Nat
  | .rsa => 6
  | .ec => 408
  | .rsaPss => 912
  | .ed25519 => 1087

def text (k : KeyKind) : String :=
  "Id(" ++ toString k.number ++ ")"

end KeyKind

def KeyFamily.kind : KeyFamily → KeyKind
  | .rsa => .rsa
  | .ec => .ec

inductive PublicKey where
  | rsa (key : Rsa.PublicKey)
  | ec (key : Ecdsa.PublicKey)
  | rsaPss (key : Rsa.PublicKey)
  | ed25519 (bytes : List UInt8)
  deriving DecidableEq

inductive PrivateKey where
  | rsa (key : Rsa.PrivateKey)
  /-- The point of the public key stands beside the scalar. -/
  | ec (key : Ecdsa.PrivateKey) (point : Ecdsa.PublicKey)
  | rsaPss (key : Rsa.PrivateKey)
  | ed25519 (seed : List UInt8)

namespace PublicKey

def kind : PublicKey → KeyKind
  | .rsa _ => .rsa
  | .ec _ => .ec
  | .rsaPss _ => .rsaPss
  | .ed25519 _ => .ed25519

/-- Whether a signature is one of some content, where that can be checked. Keys that only serve to be told
apart check nothing. -/
def check? (k : PublicKey) (d : Digest) (content signature : List UInt8) : Option Bool :=
  match k with
  | .rsa key => some (Rsa.verify key d content signature)
  | .ec key => Ecdsa.check? key d content signature
  | .rsaPss _ | .ed25519 _ => none

/-- Whether a signature is accepted for some content. One that cannot be checked is not. -/
def verify (k : PublicKey) (d : Digest) (content signature : List UInt8) : Bool :=
  (k.check? d content signature).getD false

end PublicKey

namespace PrivateKey

def kind : PrivateKey → KeyKind
  | .rsa _ => .rsa
  | .ec _ _ => .ec
  | .rsaPss _ => .rsaPss
  | .ed25519 _ => .ed25519

def bits : PrivateKey → Nat
  | .rsa key | .rsaPss key => if key.modulus = 0 then 0 else key.modulus.log2 + 1
  | .ec key _ => key.curve.orderBits
  | .ed25519 _ => 253

def sign? (k : PrivateKey) (d : Digest) (content : List UInt8) : Option (List UInt8) :=
  match k with
  | .rsa key => Rsa.sign? key d content
  | .ec key _ => Ecdsa.sign? key d content
  | .rsaPss _ | .ed25519 _ => none

def belongsTo (k : PrivateKey) (p : PublicKey) : Bool :=
  match k, p with
  | .rsa key, .rsa q => key.toPublic = q
  | .rsaPss key, .rsaPss q => key.toPublic = q
  | .ec _ point, .ec q => point = q
  | .ed25519 seed, .ed25519 q => Edwards.publicKey seed = q
  | _, _ => false

end PrivateKey

end SoapRelay
