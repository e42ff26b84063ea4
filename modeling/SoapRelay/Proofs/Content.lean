import SoapRelay.Proofs.Envelope
import SoapRelay.Proofs.Hex
import SoapRelay.Signature.Signer

/-!
# What a signed content says

The content that a signature covers carries no lengths and no mark of its kind. It still tells requests
from replies and all their fields apart, so a token that is good for one content is good for one
envelope.
-/

namespace SoapRelay

/-- An envelope of either kind. -/
inductive Envelope where
  | request (r : Request)
  | reply (r : Reply)
  deriving DecidableEq

namespace Envelope

instance : Signable Envelope where
  unsigned
    | .request r => r.unsigned
    | .reply r => r.unsigned
  signature
    | .request r => r.signature
    | .reply r => r.signature
  withSignature
    | .request r, s => .request { r with signature := s }
    | .reply r, s => .reply { r with signature := s }

/-- The same kind, and the same fields apart from the signature. -/
inductive Agree : Envelope → Envelope → Prop where
  | request {a b : Request} (id : a.id = b.id) (context : a.context = b.context) (payload : a.payload = b.payload)
      (organization : a.organization? = b.organization?) : Agree (.request a) (.request b)
  | reply {a b : Reply} (id : a.id = b.id) (response : a.response = b.response) : Agree (.reply a) (.reply b)

variable {a b : Envelope}

theorem agree_of_unsigned (same : Signable.unsigned a = Signable.unsigned b) : Agree a b := by
  cases a with
  | request a =>
    cases b with
    | request b =>
      obtain ⟨id, context, payload, organization⟩ := Request.unsigned_inj same
      exact .request id context payload organization
    | reply b => exact absurd same.symm (Reply.unsigned_ne_request b a)
  | reply a =>
    cases b with
    | request b => exact absurd same (Reply.unsigned_ne_request a b)
    | reply b =>
      obtain ⟨id, response⟩ := Reply.unsigned_inj same
      exact .reply id response

theorem Agree.unsigned (agree : Agree a b) : Signable.unsigned a = Signable.unsigned b := by
  cases agree with
  | @request a b id context payload organization =>
    show a.unsigned = b.unsigned
    rw [Request.unsigned, Request.unsigned, id, context, payload, organization]
  | @reply a b id response =>
    show a.unsigned = b.unsigned
    rw [Reply.unsigned, Reply.unsigned, id, response]

@[simp] theorem signature_withSignature (e : Envelope) (token : String) :
    Signable.signature (Signable.withSignature e token) = token := by
  cases e with
  | request r => rfl
  | reply r => rfl

theorem token_of_sign {signer : Signer} {signed : Envelope} (made : signer.sign? a = some signed) :
    signer.token? (Signable.unsigned a) = some (Signable.signature signed) := by
  obtain ⟨token, given, rfl⟩ := Option.map_eq_some_iff.mp made
  rw [given, signature_withSignature]

/-- Two envelopes have the same signed content exactly if they are of one kind and agree on every field
but the signature. Hence a token that is accepted only for the content it was signed for is refused on
every envelope that differs from the signed one in anything else. -/
theorem signed_content_determines_envelope :
    (∀ a b : Envelope, Signable.unsigned a = Signable.unsigned b ↔ Agree a b) ∧
      ∀ (signer verifier : Signer) (a signed : Envelope), signer.sign? a = some signed →
        (∀ content other, signer.token? content = some (Signable.signature signed) →
          verifier.accepts other (Signable.signature signed) = true → other = content) →
        ∀ b, Signable.signature b = Signable.signature signed → ¬Agree a b → verifier.verify b = false := by
  refine ⟨fun a b => ⟨agree_of_unsigned, Agree.unsigned⟩, ?_⟩
  intro signer verifier a signed made only b carries differ
  refine Bool.eq_false_iff.mpr ?_
  intro verified
  have accepted : verifier.accepts (Signable.unsigned b) (Signable.signature signed) = true := carries ▸ verified
  have own := only _ _ (token_of_sign made) accepted
  exact differ (agree_of_unsigned own.symm)

/-! ### A token on a reply that was made for a request -/

namespace Transplant

/-- It signs a content with the content itself. -/
def signer : Signer where
  algorithm := ⟨.sha256, .rsa⟩
  bits := 0
  signBytes content := some content
  verifyBytes content signature := signature = content

def request : Request := ⟨.numbered 1, "a", "b", none, ""⟩

def signed : Request := { request with signature := Hex.text (Utf8.bytes request.unsigned) }

def reply : Reply := ⟨.numbered 1, "b", signed.signature⟩

theorem signer_only {content other token : String} (made : signer.token? content = some token)
    (accepted : signer.accepts other token = true) : other = content := by
  obtain rfl : Hex.text (Utf8.bytes content) = token := Option.some.inj made
  rw [Signer.accepts_text] at accepted
  have same : Utf8.bytes content = Utf8.bytes other := of_decide_eq_true accepted
  exact (Utf8.bytes_inj.mp same).symm

end Transplant

/-- The token of a request is good for the request and not for a reply to it. -/
theorem signed_content_determines_envelope_of_request :
    Transplant.signer.sign? (request Transplant.request) = some (request Transplant.signed) ∧
      Transplant.signer.verify (request Transplant.signed) = true ∧
      Transplant.signer.verify (reply Transplant.reply) = false := by
  have made : Transplant.signer.sign? (request Transplant.request) = some (request Transplant.signed) := rfl
  refine ⟨made, by decide +kernel, ?_⟩
  exact signed_content_determines_envelope.2 _ _ _ _ made (fun _ _ => Transplant.signer_only) (reply Transplant.reply)
    rfl nofun

end Envelope

end SoapRelay
