import SoapRelay.Envelope.Reply
import SoapRelay.Envelope.Request
import SoapRelay.Files
import SoapRelay.Keys.Certificate
import SoapRelay.Text.Hex

/-!
# Signing and checking envelopes

A signer signs with its own private key and checks with the public key of its peer. A signature
travels as a token of lower-case hexadecimal digits, and only that written form is accepted, so a
signature has one token.
-/

namespace SoapRelay

inductive SignerError where
  | keyFile (path : String) (cause : FileError)
  | keyDecode
  | keyTypeMismatch (expected : KeyFamily) (found : String)
  | unsupportedKeyType (text : String)
  | unsupportedAlgorithm (text : String)
  | signing
  deriving DecidableEq, Repr

def SignerError.message : SignerError → String
  | .keyFile path cause => "failed to read key file " ++ path ++ ": " ++ cause.message
  | .keyDecode => "failed to decode key"
  | .keyTypeMismatch expected found =>
    "key type mismatch: expected " ++ expected.name ++ ", found " ++ found
  | .unsupportedKeyType text => "unsupported key type: " ++ text
  | .unsupportedAlgorithm text => "unsupported signature algorithm: " ++ text
  | .signing => "signing failed"

/-- An envelope that carries a signature over the rest of itself. -/
class Signable (ε : Type) where
  unsigned : ε → String
  signature : ε → String
  withSignature : ε → String → ε

instance : Signable Request where
  unsigned := Request.unsigned
  signature := Request.signature
  withSignature r s := { r with signature := s }

instance : Signable Reply where
  unsigned := Reply.unsigned
  signature := Reply.signature
  withSignature r s := { r with signature := s }

structure Signer where
  algorithm : SignatureAlgorithm
  /-- The size of the private key. -/
  bits : Nat
  signBytes : List UInt8 → Option (List UInt8)
  verifyBytes : List UInt8 → List UInt8 → Bool

namespace Signer

/-- A signer of two keys. Both must be of the expected family, and so must the algorithm. -/
def ofKeys (privateKey : PrivateKey) (publicKey : PublicKey) (algorithm : SignatureAlgorithm)
    (expected : KeyFamily := algorithm.family) : Except SignerError Signer :=
  if algorithm.family ≠ expected then .error (.keyTypeMismatch expected algorithm.name)
  else if privateKey.kind ≠ expected.kind then
    .error (.keyTypeMismatch expected privateKey.kind.text)
  else if publicKey.kind ≠ expected.kind then
    .error (.keyTypeMismatch expected publicKey.kind.text)
  else .ok {
    algorithm
    bits := privateKey.bits
    signBytes := privateKey.sign? algorithm.digest
    verifyBytes := publicKey.verify algorithm.digest }

/-- How a signer shows itself: without its keys. -/
def summary (s : Signer) : String :=
  "Signer \x7b algorithm: " ++ Quoted.text s.algorithm.name ++ ", bits: " ++ toString s.bits ++ ", .. \x7d"

def token? (s : Signer) (content : String) : Option String :=
  (s.signBytes (Utf8.bytes content)).map Hex.text

/-- Digits in upper case could be read as well, but only a token in lower case is, so that a signature has
one token. -/
def accepts (s : Signer) (content token : String) : Bool :=
  let digits := Utf8.bytes token
  if digits.all Hex.isLower then
    match Hex.decode digits with
    | some signature => s.verifyBytes (Utf8.bytes content) signature
    | none => false
  else false

variable {ε : Type} [Signable ε]

def sign? (s : Signer) (envelope : ε) : Option ε :=
  (s.token? (Signable.unsigned envelope)).map (Signable.withSignature envelope)

def verify (s : Signer) (envelope : ε) : Bool :=
  s.accepts (Signable.unsigned envelope) (Signable.signature envelope)

end Signer

namespace Keys

/-- A key stands in text blocks if dashes open the file, after blanks. -/
def isText (bytes : List UInt8) : Bool :=
  (Utf8.bytes "-----BEGIN").isPrefixOf
    (bytes.dropWhile fun b => b = 32 || b = 9 || b = 10 || b = 12 || b = 13)

def occursIn (part : List UInt8) : List UInt8 → Bool
  | [] => part.isEmpty
  | b :: rest => part.isPrefixOf (b :: rest) || occursIn part rest

def readPrivate (bytes : List UInt8) : Except SignerError PrivateKey :=
  match if isText bytes then PrivateKey.ofPem? bytes else PrivateKey.ofBytes? bytes with
  | some k => .ok k
  | none => .error .keyDecode

/-- A text that mentions a certificate is read as one. -/
def publicKey? (bytes : List UInt8) : Option PublicKey :=
  if !isText bytes then PublicKey.ofBytes? bytes
  else if occursIn (Utf8.bytes "BEGIN CERTIFICATE") bytes then do
    (← Certificate.ofPem? bytes).key?
  else PublicKey.ofPem? bytes

def readPublic (bytes : List UInt8) : Except SignerError PublicKey :=
  match publicKey? bytes with
  | some k => .ok k
  | none => .error .keyDecode

end Keys

structure SigningOptions where
  family : KeyFamily
  privateKeyFile : String
  publicKeyFile : String
  provider : String
  algorithm : SignatureAlgorithm
  deriving DecidableEq, Repr

def readKeyFile (files : Files) (path : String) : Except SignerError (List UInt8) :=
  match files.read path with
  | .ok bytes => .ok bytes
  | .error e => .error (.keyFile path e)

/-- Reads both keys, the private one first. -/
def Signer.load (files : Files) (o : SigningOptions) : Except SignerError Signer := do
  let privateKey ← Keys.readPrivate (← readKeyFile files o.privateKeyFile)
  let publicKey ← Keys.readPublic (← readKeyFile files o.publicKeyFile)
  Signer.ofKeys privateKey publicKey o.algorithm o.family

end SoapRelay
