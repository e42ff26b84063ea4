import SoapRelay.Crypto.Aes
import SoapRelay.Crypto.Chain
import SoapRelay.Crypto.TripleDes
import SoapRelay.Keys.Reading

/-!
# Parts under a password

How a password becomes a key, and how the parts of an archive are decrypted with it. Newer archives
name a cipher and the way its key is derived; older ones name both at once, and derive the first block
of the chain too.
-/

namespace SoapRelay

open Der (Element)

def Der.Element.algorithm? (e : Element) : Option (String × List Element) := do
  match ← e.items? with
  | name :: parameters => return (← name.objectId?, parameters)
  | [] => none

/-- A password as its characters are encoded, and in the wide form of older archives. -/
structure Password where
  bytes : List UInt8
  wide : List UInt8
  deriving DecidableEq

namespace Password

/-- Two bytes for each sixteen bits, and two zeros at the end. -/
def wideBytes (text : String) : List UInt8 :=
  (text.toList.flatMap fun c =>
    let n := c.toNat
    if n < 0x10000 then Octets.ofNat 2 n
    else Octets.ofNat 2 (0xD800 + (n - 0x10000) / 0x400) ++ Octets.ofNat 2 (0xDC00 + (n - 0x10000) % 0x400))
    ++ [0, 0]

/-- The forms that a password may have. No password may be without the zeros too. -/
def forms (text : String) : List Password :=
  let bytes := Utf8.bytes text
  if text = "" then [⟨bytes, []⟩, ⟨bytes, wideBytes text⟩] else [⟨bytes, wideBytes text⟩]

/-! ### Bytes derived by counting -/

inductive Purpose where
  | key
  | start
  | checksum
  deriving DecidableEq, Repr

def Purpose.number : Purpose → UInt8
  | .key => 1
  | .start => 2
  | .checksum => 3

/-- Bytes repeated up to whole blocks. -/
def fill (size : Nat) (bytes : List UInt8) : List UInt8 :=
  let blocks := (bytes.length + size - 1) / size
  ((List.replicate (blocks * size) bytes).flatten).take (blocks * size)

/-- A digest that is taken `iterations` times, and at least once. -/
def digestAgain (d : Digest) (iterations : Nat) (bytes : List UInt8) : List UInt8 :=
  (List.range (iterations - 1)).foldl (fun bytes _ => d.run bytes) (d.run bytes)

/-- The sum of two numbers and one, in the length of the second. -/
def count (step block : List UInt8) : List UInt8 :=
  Octets.ofNat block.length (Octets.toNat block + Octets.toNat step + 1)

/-- Digests of the input, which each digest changes block by block. -/
def derivedBlocks (d : Digest) (purpose : Purpose) (iterations : Nat) :
    (number : Nat) → (input : List UInt8) → List UInt8
  | 0, _ => []
  | number + 1, input =>
    let out := digestAgain d iterations (List.replicate d.blockSize purpose.number ++ input)
    let step := fill d.blockSize out
    out ++ derivedBlocks d purpose iterations number
      ((Octets.blocks d.blockSize input).flatMap (count step))

/-- `length` bytes derived from a password in its wide form. -/
def derive (p : Password) (d : Digest) (purpose : Purpose) (salt : List UInt8) (iterations length : Nat) :
    List UInt8 :=
  let number := (length + d.size - 1) / d.size
  (derivedBlocks d purpose iterations number (fill d.blockSize salt ++ fill d.blockSize p.wide)).take length

end Password

/-! ### Ciphers -/

/-- A block cipher with keys of a length in bytes. -/
inductive Cipher where
  | aes (keyLength : Nat)
  | tripleDes (keyLength : Nat)
  deriving DecidableEq, Repr

namespace Cipher

def keyLength : Cipher → Nat
  | .aes n | .tripleDes n => n

def blockSize : Cipher → Nat
  | .aes _ => 16
  | .tripleDes _ => 8

def decrypt? (c : Cipher) (key start bytes : List UInt8) : Option (List UInt8) :=
  let block := match c with
    | .aes _ => Aes.decryptBlock (Aes.roundKeys key)
    | .tripleDes _ => TripleDes.decryptBlock (TripleDes.partKeys key)
  Chain.decrypt? c.blockSize block start bytes

def ofObjectId? : String → Option Cipher
  | "2.16.840.1.101.3.4.1.2" => some (.aes 16)
  | "2.16.840.1.101.3.4.1.22" => some (.aes 24)
  | "2.16.840.1.101.3.4.1.42" => some (.aes 32)
  | "1.2.840.113549.3.7" => some (.tripleDes 24)
  | _ => none

/-- The ciphers of algorithms that name a cipher and the derivation of its key at once. -/
def ofDirect? : String → Option Cipher
  | "1.2.840.113549.1.12.1.3" => some (.tripleDes 24)
  | "1.2.840.113549.1.12.1.4" => some (.tripleDes 16)
  | _ => none

end Cipher

/-! ### Protected parts -/

def Digest.ofObjectId? : String → Option Digest
  | "1.3.14.3.2.26" => some .sha1
  | "2.16.840.1.101.3.4.2.1" => some .sha256
  | "2.16.840.1.101.3.4.2.2" => some .sha384
  | "2.16.840.1.101.3.4.2.3" => some .sha512
  | _ => none

def Digest.ofKeyed? : String → Option Digest
  | "1.2.840.113549.2.7" => some .sha1
  | "1.2.840.113549.2.9" => some .sha256
  | "1.2.840.113549.2.10" => some .sha384
  | "1.2.840.113549.2.11" => some .sha512
  | _ => none

namespace Protection

structure Derivation where
  digest : Digest
  salt : List UInt8
  iterations : Nat

def Derivation.ofElement? (e : Element) : Option Derivation := do
  match ← e.algorithm? with
  | ("1.2.840.113549.1.5.12", [parameters]) =>
    match ← parameters.items? with
    | salt :: iterations :: rest =>
      let digest ← match rest.filter (·.tag = Der.Tag.sequence) with
        | keyed :: _ => Digest.ofKeyed? (← keyed.algorithm?).1
        | [] => pure .sha1
      return ⟨digest, ← salt.octets?, ← iterations.natural?⟩
    | _ => none
  | _ => none

/-- Decrypts where the derivation of the key and the cipher have names of their own. -/
def decryptNamed? (password : Password) (parameters : Element) (bytes : List UInt8) :
    Option (List UInt8) := do
  match ← parameters.items? with
  | [derivation, scheme] =>
    let d ← Derivation.ofElement? derivation
    match ← scheme.algorithm? with
    | (name, [start]) =>
      let cipher ← Cipher.ofObjectId? name
      let key := Pbkdf2.derive d.digest password.bytes d.salt d.iterations cipher.keyLength
      cipher.decrypt? key (← start.octets?) bytes
    | _ => none
  | _ => none

/-- Decrypts where one name stands for both. -/
def decryptDirect? (password : Password) (cipher : Cipher) (parameters : Element) (bytes : List UInt8) :
    Option (List UInt8) := do
  match ← parameters.items? with
  | [salt, iterations] =>
    let salt ← salt.octets?
    let iterations ← iterations.natural?
    let derived (purpose : Password.Purpose) := password.derive .sha1 purpose salt iterations
    cipher.decrypt? (derived .key cipher.keyLength) (derived .start cipher.blockSize) bytes
  | _ => none

def decrypt? (password : Password) (algorithm : Element) (bytes : List UInt8) : Option (List UInt8) := do
  match ← algorithm.algorithm? with
  | (name, [parameters]) =>
    if name = "1.2.840.113549.1.5.13" then decryptNamed? password parameters bytes
    else decryptDirect? password (← Cipher.ofDirect? name) parameters bytes
  | _ => none

end Protection

end SoapRelay
