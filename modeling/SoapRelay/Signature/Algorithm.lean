/-!
# Key families and signature algorithms

An algorithm pairs a digest with a key family and is named `<DIGEST>with<KEY>`. SHA-1 is offered
for RSA only. Names are compared without regard to ASCII case.
-/

namespace SoapRelay

inductive KeyFamily where
  | rsa
  | ec
  deriving DecidableEq, Repr

namespace KeyFamily

def name : KeyFamily → String
  | .rsa => "RSA"
  | .ec => "EC"

def ofName? (text : String) : Option KeyFamily :=
  match text.toUpper with
  | "RSA" => some .rsa
  | "EC" => some .ec
  | "ECDSA" => some .ec
  | _ => none

end KeyFamily

inductive Digest where
  | sha1
  | sha256
  | sha384
  | sha512
  deriving DecidableEq, Repr

def Digest.name : Digest → String
  | .sha1 => "SHA1"
  | .sha256 => "SHA256"
  | .sha384 => "SHA384"
  | .sha512 => "SHA512"

structure SignatureAlgorithm where
  digest : Digest
  family : KeyFamily
  deriving DecidableEq, Repr

namespace SignatureAlgorithm

def name (a : SignatureAlgorithm) : String :=
  a.digest.name ++ "with" ++ match a.family with
    | .rsa => "RSA"
    | .ec => "ECDSA"

def supported : List SignatureAlgorithm :=
  [⟨.sha1, .rsa⟩, ⟨.sha256, .rsa⟩, ⟨.sha384, .rsa⟩, ⟨.sha512, .rsa⟩,
    ⟨.sha256, .ec⟩, ⟨.sha384, .ec⟩, ⟨.sha512, .ec⟩]

def ofName? (text : String) : Option SignatureAlgorithm :=
  supported.find? fun a => a.name.toUpper = text.toUpper

end SignatureAlgorithm

end SoapRelay
