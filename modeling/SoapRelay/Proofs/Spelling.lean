import SoapRelay.Proofs.Envelope
import SoapRelay.Proofs.Signed

/-!
# A signature has one spelling

Digits of either case could be read, but a token in upper case is turned away before it is. So a signature
is accepted as one token only, and with the fields of a request, each of which has one spelling too, it is
carried by one line only.
-/

namespace SoapRelay

namespace Hex

/-- The characters of tokens. -/
def digits : List Char := "0123456789abcdef".toList

theorem mem_digits_of_mem_text {bs : List UInt8} {c : Char} (member : c ∈ (text bs).toList) : c ∈ digits := by
  have all : ∀ n < 103, 48 ≤ n ∧ n ≤ 57 ∨ 97 ≤ n ∧ n ≤ 102 → Char.ofNat n ∈ digits := by decide +kernel
  have range := mem_text member
  have listed := all c.toNat (by omega) range
  rwa [Char.ofNat_toNat] at listed

theorem length_bytes_text (bs : List UInt8) : (Utf8.bytes (text bs)).length = 2 * bs.length := by
  rw [bytes_text, length_encode]

theorem length_text (bs : List UInt8) : (text bs).length = 2 * bs.length := by
  rw [text, String.length_ofList, List.length_map, length_encode]

/-- A text that is no byte string's written form: it has an odd number of bytes or of characters, or one of
its characters is not a digit in lower case. -/
def Misspelt (token : String) : Prop :=
  (Utf8.bytes token).length % 2 = 1 ∨ token.length % 2 = 1 ∨ ∃ c ∈ token.toList, c ∉ digits

theorem not_misspelt_text (bs : List UInt8) : ¬Misspelt (text bs) := by
  rintro (bytes | chars | ⟨c, member, other⟩)
  · rw [length_bytes_text] at bytes
    omega
  · rw [length_text] at chars
    omega
  · exact other (mem_digits_of_mem_text member)

end Hex

/-- Two requests that say the same. Their signatures need only be the same bytes. -/
structure Request.SameFields (a b : Request) : Prop where
  id : a.id = b.id
  context : a.context = b.context
  payload : a.payload = b.payload
  organization : a.organization? = b.organization?
  signature : Hex.decode (Utf8.bytes a.signature) = Hex.decode (Utf8.bytes b.signature)

theorem PublicKey.verify_eq_true_iff {k : PublicKey} {d : Digest} {content signature : List UInt8} :
    k.verify d content signature = true ↔ k.check? d content signature = some true := by
  unfold verify
  cases k.check? d content signature with
  | none => exact ⟨nofun, nofun⟩
  | some outcome => exact Option.some_inj.symm

namespace Signer

variable {signer : Signer} {privateKey : PrivateKey} {publicKey : PublicKey} {algorithm : SignatureAlgorithm}
  {expected : KeyFamily} {content content' token token' : String}

theorem accepts_iff_check? (made : ofKeys privateKey publicKey algorithm expected = .ok signer) :
    signer.accepts content token = true ↔ ∃ signature, token = Hex.text signature ∧
      publicKey.check? algorithm.digest (Utf8.bytes content) signature = some true := by
  obtain ⟨_, verifies⟩ := keys_of_ofKeys made
  rw [accepts_eq_true_iff, verifies]
  constructor
  · rintro ⟨signature, rfl, verified⟩
    exact ⟨signature, rfl, PublicKey.verify_eq_true_iff.mp verified⟩
  · rintro ⟨signature, rfl, checked⟩
    exact ⟨signature, rfl, PublicKey.verify_eq_true_iff.mpr checked⟩

/-- An accepted token is written for the bytes that are read from it. -/
theorem text_of_accepts {signature : List UInt8} (accepted : signer.accepts content token = true)
    (read : Hex.decode (Utf8.bytes token) = some signature) :
    Hex.text signature = token ∧ signer.verifyBytes (Utf8.bytes content) signature = true := by
  obtain ⟨own, rfl, verified⟩ := accepts_eq_true_iff.mp accepted
  rw [Hex.bytes_text, Hex.decode_encode] at read
  obtain rfl := Option.some.inj read
  exact ⟨rfl, verified⟩

theorem token_eq_of_decode_eq (accepted : signer.accepts content token = true)
    (accepted' : signer.accepts content' token' = true)
    (same : Hex.decode (Utf8.bytes token) = Hex.decode (Utf8.bytes token')) : token = token' := by
  obtain ⟨signature, rfl, _⟩ := accepts_eq_true_iff.mp accepted
  rw [Hex.bytes_text, Hex.decode_encode] at same
  exact (text_of_accepts accepted' same.symm).1

theorem line_eq_of_sameFields {line line' : String} {a b : Request} (read : Request.decode line = .ok a)
    (read' : Request.decode line' = .ok b) (verified : signer.verify a = true) (verified' : signer.verify b = true)
    (same : a.SameFields b) : line = line' := by
  obtain ⟨rfl, _⟩ := Request.encode_of_decode read
  obtain ⟨rfl, _⟩ := Request.encode_of_decode read'
  obtain ⟨id, context, payload, organization, bytes⟩ := same
  have signature : a.signature = b.signature := token_eq_of_decode_eq verified verified' bytes
  cases a
  cases b
  dsimp only at id context payload organization signature
  rw [id, context, payload, organization, signature]

theorem refuses_misspelt (misspelt : Hex.Misspelt token) : signer.accepts content token = false := by
  rw [Bool.eq_false_iff]
  intro accepted
  obtain ⟨signature, rfl, _⟩ := accepts_eq_true_iff.mp accepted
  exact Hex.not_misspelt_text signature misspelt

/-- Bytes that the key cannot check are refused like a wrong signature. -/
theorem refuses_unchecked (made : ofKeys privateKey publicKey algorithm expected = .ok signer)
    {signature : List UInt8} (read : Hex.decode (Utf8.bytes token) = some signature)
    (fails : publicKey.check? algorithm.digest (Utf8.bytes content) signature = none) :
    signer.accepts content token = false := by
  rw [Bool.eq_false_iff]
  intro accepted
  obtain ⟨_, verified⟩ := text_of_accepts accepted read
  rw [(keys_of_ofKeys made).2, PublicKey.verify_eq_true_iff, fails] at verified
  cases verified

/-- A signature has one token, and with the fields of a request one line. Of all texts a signer accepts exactly
the written forms of the signatures that check. Accepted tokens of the same bytes are the same, and so are
lines that are read as verified requests of the same fields and signature bytes. A text that is misspelt, or
whose bytes cannot be checked, is not accepted. -/
theorem one_token_per_signature (made : ofKeys privateKey publicKey algorithm expected = .ok signer) :
    (∀ content token, signer.accepts content token = true ↔ ∃ signature, token = Hex.text signature ∧
      publicKey.check? algorithm.digest (Utf8.bytes content) signature = some true) ∧
    (∀ content content' token token', signer.accepts content token = true → signer.accepts content' token' = true →
      Hex.decode (Utf8.bytes token) = Hex.decode (Utf8.bytes token') → token = token') ∧
    (∀ line line' a b, Request.decode line = .ok a → Request.decode line' = .ok b →
      signer.verify a = true → signer.verify b = true → a.SameFields b → line = line') ∧
    (∀ content token, Hex.Misspelt token → signer.accepts content token = false) ∧
    ∀ content token signature, Hex.decode (Utf8.bytes token) = some signature →
      publicKey.check? algorithm.digest (Utf8.bytes content) signature = none →
      signer.accepts content token = false := by
  exact ⟨fun _ _ => accepts_iff_check? made, fun _ _ _ _ => token_eq_of_decode_eq,
    fun _ _ _ _ => line_eq_of_sameFields, fun _ _ => refuses_misspelt, fun _ _ _ => refuses_unchecked made⟩

end Signer

/-! ### Two key pairs, one of each family -/

theorem Rsa.Sample.accepts_given {content token : String} (given : signer.token? content = some token) :
    separator ∉ token.toList ∧ signer.accepts content token = true :=
  Signer.accepts_token signer_made (by decide +kernel) (PublicKey.honours_of_proper proper _ _) given

namespace Ecdsa.Sample

def point : PublicKey := ⟨.p256, Curve.p256.baseX, Curve.p256.baseY⟩

/-- The scalar one, whose point is the base of the curve. -/
def key : PrivateKey := ⟨.p256, 1⟩

def signer : Signer where
  algorithm := ⟨.sha256, .ec⟩
  bits := PrivateKey.bits (.ec key point)
  signBytes := PrivateKey.sign? (.ec key point) .sha256
  verifyBytes := PublicKey.verify (.ec point) .sha256

theorem signer_made : Signer.ofKeys (.ec key point) (.ec point) ⟨.sha256, .ec⟩ = .ok signer := rfl

/-- The token of `x~`. -/
def token : String :=
  "3046022100f63c3881710c48acbb807a06d6600b8a6eac56629c3ebd62b392ac8ab7d15cf1" ++
    "022100bd038d7b5e1985a771c7a1cffbc3a29c21feb02a4056d8079c444e709b741d3b"

theorem accepts_spelt : signer.accepts "x~" token = true := by decide +kernel

end Ecdsa.Sample

namespace Signer

/-- The token of a sample is the only one of its bytes, in upper case or with one digit more it is refused,
and the line of a signed request is the only one of its fields. So it is on a curve, where `30` opens a
signature that does not go on. -/
theorem one_token_per_signature_of_samples :
    (Rsa.Sample.signer.accepts "x~" Rsa.Sample.token = true ∧
      (∀ other, Rsa.Sample.signer.accepts "x~" other = true →
        Hex.decode (Utf8.bytes other) = Hex.decode (Utf8.bytes Rsa.Sample.token) → other = Rsa.Sample.token) ∧
      Rsa.Sample.signer.accepts "x~" Rsa.Sample.token.toUpper = false ∧
      Rsa.Sample.signer.accepts "x~" (Rsa.Sample.token ++ "0") = false ∧
      ∃ signed : Request, Rsa.Sample.signer.verify signed = true ∧ Request.decode signed.encode = .ok signed ∧
        ∀ line a, Request.decode line = .ok a → Rsa.Sample.signer.verify a = true → a.SameFields signed →
          line = signed.encode) ∧
    (∃ signature, Ecdsa.Sample.token = Hex.text signature ∧
      (PublicKey.ec Ecdsa.Sample.point).check? .sha256 (Utf8.bytes "x~") signature = some true) ∧
    Ecdsa.Sample.signer.accepts "x~" "30" = false := by
  obtain ⟨_, unique, line, misspelt, _⟩ := one_token_per_signature Rsa.Sample.signer_made
  obtain ⟨written, _, _, _, fails⟩ := one_token_per_signature Ecdsa.Sample.signer_made
  have known := (Rsa.Sample.accepts_given Rsa.Sample.token_given).2
  have signs : (Rsa.Sample.signer.token?
      (⟨.numbered 1, "/Ping", "<ping/>", some "org-a", ""⟩ : Request).unsigned).isSome = true := by decide +kernel
  obtain ⟨token, given⟩ := Option.isSome_iff_exists.mp signs
  obtain ⟨clean, verified⟩ := Rsa.Sample.accepts_given given
  have read := Request.decode_encode (r := ⟨.numbered 1, "/Ping", "<ping/>", some "org-a", token⟩) clean
  refine ⟨⟨known, ?only, ?upper, ?longer, _, ?verified, read, ?line⟩, ?curve, ?malformed⟩
  case only =>
    intro other accepted same
    exact unique _ _ _ _ accepted known same
  case upper => exact misspelt _ _ (.inr (.inr ⟨'F', by decide +kernel, by decide +kernel⟩))
  case longer => exact misspelt _ _ (.inl (by decide +kernel))
  case verified => exact verified
  case line =>
    intro other a read' verified'
    exact line _ _ _ _ read' read verified' verified
  case curve => exact (written _ _).mp Ecdsa.Sample.accepts_spelt
  case malformed => exact fails _ _ [0x30] (by decide +kernel) (by decide +kernel)

end Signer

end SoapRelay
