import SoapRelay.Proofs.Token
import SoapRelay.Proofs.Trailer

/-!
# Signed envelopes on the wire

The content that is checked is put together again from the fields that were read. It is the content that
was signed, so an envelope that was signed is read as it is and accepted by the key that belongs to the one
it was signed with.
-/

namespace SoapRelay

/-- Of keys that belong together, the public one accepts what the private one signs. -/
def PublicKey.Honours (publicKey : PublicKey) (privateKey : PrivateKey) (d : Digest) : Prop :=
  privateKey.belongsTo publicKey = true → ∀ content signature,
    privateKey.sign? d content = some signature → publicKey.verify d content signature = true

theorem PublicKey.honours_of_proper {k : Rsa.PrivateKey} {p q : Nat} (proper : k.Proper p q)
    (publicKey : PublicKey) (d : Digest) : publicKey.Honours (.rsa k) d := by
  intro matching content signature signed
  obtain rfl := PrivateKey.eq_of_belongsTo_rsa matching
  exact (proper.verify_iff signed signature).mpr rfl

namespace Signer

variable {signer verifier : Signer} {privateKey otherKey : PrivateKey} {publicKey peerKey : PublicKey}
  {algorithm : SignatureAlgorithm} {expected : KeyFamily}

/-- Whatever the one signs, the other accepts. -/
def Trusts (verifier signer : Signer) : Prop :=
  ∀ content token, signer.token? content = some token → verifier.accepts content token = true

/-- Of two sides with keys, the one trusts the other if its public key belongs to the private key there. -/
theorem trusts_of_keys (made : ofKeys privateKey peerKey algorithm expected = .ok signer)
    (other : ofKeys otherKey publicKey algorithm expected = .ok verifier)
    (matching : privateKey.belongsTo publicKey = true) (honours : publicKey.Honours privateKey algorithm.digest) :
    verifier.Trusts signer := by
  intro content token given
  obtain ⟨signs, _⟩ := keys_of_ofKeys made
  obtain ⟨_, verifies⟩ := keys_of_ofKeys other
  obtain ⟨signature, signed, rfl⟩ := Option.map_eq_some_iff.mp given
  rw [signs] at signed
  refine accepts_eq_true_iff.mpr ⟨signature, rfl, ?_⟩
  rw [verifies]
  exact honours matching _ _ signed

/-- The token of a content has no separator in it and is accepted for the content. -/
theorem accepts_token (made : ofKeys privateKey publicKey algorithm expected = .ok signer)
    (matching : privateKey.belongsTo publicKey = true) (honours : publicKey.Honours privateKey algorithm.digest)
    {content token : String} (given : signer.token? content = some token) :
    separator ∉ token.toList ∧ signer.accepts content token = true :=
  ⟨separator_not_mem_token given, trusts_of_keys made made matching honours content token given⟩

/-- Whatever is signed with one key of a pair survives the wire: a request or a reply is read as it was
written, with anything behind a reply, and what is read is accepted with the other key. -/
theorem signed_envelope_survives_wire (made : ofKeys privateKey publicKey algorithm expected = .ok signer)
    (matching : privateKey.belongsTo publicKey = true) (honours : publicKey.Honours privateKey algorithm.digest) :
    (∀ r signed : Request, signer.sign? r = some signed →
        Request.decode signed.encode = .ok signed ∧ signer.verify signed = true) ∧
      ∀ r signed : Reply, signer.sign? r = some signed →
        Reply.decode signed.encode = .ok signed ∧
          (∀ trailer, Reply.decode (signed.encode ++ "~" ++ trailer) = .ok signed) ∧
          signer.verify signed = true := by
  constructor
  · intro r signed sealing
    obtain ⟨token, given, rfl⟩ := Option.map_eq_some_iff.mp sealing
    obtain ⟨clean, accepted⟩ := accepts_token made matching honours given
    exact ⟨Request.decode_encode clean, accepted⟩
  · intro r signed sealing
    obtain ⟨token, given, rfl⟩ := Option.map_eq_some_iff.mp sealing
    obtain ⟨clean, accepted⟩ := accepts_token made matching honours given
    have read := Reply.decode_encode (r := { r with signature := token }) clean
    refine ⟨read, fun trailer => ?_, accepted⟩
    exact (Reply.decode_closed_append (Reply.count_separator_encode _) trailer).trans read

theorem signed_envelope_survives_wire_of_sample :
    (PrivateKey.rsa Rsa.Sample.key).belongsTo (.rsa Rsa.Sample.key.toPublic) = true ∧
      ∃ signed : Reply, Rsa.Sample.signer.sign? (⟨.numbered 1, "<ok/>", ""⟩ : Reply) = some signed ∧
        Reply.decode (signed.encode ++ "~" ++ "extra~more") = .ok signed ∧
        Rsa.Sample.signer.verify signed = true := by
  have matching : (PrivateKey.rsa Rsa.Sample.key).belongsTo (.rsa Rsa.Sample.key.toPublic) = true := by
    decide +kernel
  have honours := PublicKey.honours_of_proper Rsa.Sample.proper (.rsa Rsa.Sample.key.toPublic) .sha256
  have signs : (Rsa.Sample.signer.sign? (⟨.numbered 1, "<ok/>", ""⟩ : Reply)).isSome = true := by decide +kernel
  obtain ⟨signed, made⟩ := Option.isSome_iff_exists.mp signs
  obtain ⟨_, trailed, verified⟩ :=
    (signed_envelope_survives_wire Rsa.Sample.signer_made matching honours).2 _ _ made
  exact ⟨matching, signed, made, trailed _, verified⟩

end Signer

end SoapRelay
