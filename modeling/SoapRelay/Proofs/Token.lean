import Mathlib.NumberTheory.LucasPrimality
import SoapRelay.Proofs.Hex
import SoapRelay.Proofs.Rsa
import SoapRelay.Signature.Signer

/-!
# Tokens

A token is accepted exactly if it is the written form of an accepted signature. Under a proper RSA key one
token is accepted for a content, the one that signing it gives.
-/

namespace SoapRelay

namespace Signer

variable {signer : Signer} {content token : String} {privateKey : PrivateKey} {publicKey : PublicKey}
  {algorithm : SignatureAlgorithm} {expected : KeyFamily}

theorem accepts_eq_true_iff : signer.accepts content token = true ↔
    ∃ signature, Hex.text signature = token ∧ signer.verifyBytes (Utf8.bytes content) signature = true := by
  constructor
  · intro accepted
    simp only [accepts] at accepted
    split at accepted
    · rename_i lower
      split at accepted
      · rename_i signature read
        have written := Hex.spells_iff.mp ⟨lower, read⟩
        rw [← Hex.bytes_text] at written
        exact ⟨signature, Utf8.bytes_inj.mp written, accepted⟩
      · cases accepted
    · cases accepted
  · rintro ⟨signature, rfl, verified⟩
    rw [accepts_text]
    exact verified

theorem keys_of_ofKeys (made : ofKeys privateKey publicKey algorithm expected = .ok signer) :
    signer.signBytes = privateKey.sign? algorithm.digest ∧
      signer.verifyBytes = publicKey.verify algorithm.digest := by
  unfold ofKeys at made
  split at made
  · cases made
  · split at made
    · cases made
    · split at made
      · cases made
      · obtain rfl := Except.ok.inj made
        exact ⟨rfl, rfl⟩

end Signer

theorem PublicKey.verify_rsa (k : Rsa.PublicKey) (d : Digest) : (PublicKey.rsa k).verify d = Rsa.verify k d :=
  rfl

theorem PrivateKey.eq_of_belongsTo_rsa {k : Rsa.PrivateKey} {publicKey : PublicKey}
    (matching : (PrivateKey.rsa k).belongsTo publicKey = true) : publicKey = .rsa k.toPublic := by
  unfold PrivateKey.belongsTo at matching
  cases publicKey with
  | rsa q => rw [of_decide_eq_true matching]
  | _ => cases matching

/-- Of all texts, a signer with a proper RSA key pair accepts exactly the token that it gives a content. -/
theorem Signer.rsa_token_unique {k : Rsa.PrivateKey} {p q : Nat} (proper : k.Proper p q) {publicKey : PublicKey}
    (matching : (PrivateKey.rsa k).belongsTo publicKey = true) {algorithm : SignatureAlgorithm}
    {expected : KeyFamily} {signer : Signer} (made : ofKeys (.rsa k) publicKey algorithm expected = .ok signer)
    {content token : String} (signed : signer.token? content = some token) (other : String) :
    signer.accepts content other = true ↔ other = token := by
  obtain rfl := PrivateKey.eq_of_belongsTo_rsa matching
  obtain ⟨signs, verifies⟩ := keys_of_ofKeys made
  obtain ⟨signature, given, rfl⟩ := Option.map_eq_some_iff.mp signed
  have only : ∀ s, signer.verifyBytes (Utf8.bytes content) s = true ↔ s = signature := by
    intro s
    rw [signs] at given
    rw [verifies]
    exact proper.verify_iff given s
  rw [accepts_eq_true_iff]
  constructor
  · rintro ⟨s, rfl, verified⟩
    rw [(only s).mp verified]
  · rintro rfl
    exact ⟨signature, rfl, (only signature).mpr rfl⟩

/-! ### A key pair -/

namespace Rsa.Sample

theorem natCast_pow_eq_one_iff {a n p : Nat} (large : 1 < p) : (a : ZMod p) ^ n = 1 ↔ powMod a n p = 1 := by
  rw [powMod_eq, Nat.pow_eq, ← Nat.cast_pow, ← Nat.cast_one, ZMod.natCast_eq_natCast_iff', Nat.one_mod_eq_one.mpr]
  omega

/-- The test for primes that are one above three times a power of two. -/
theorem prime_of_powMod {n a : Nat} (whole : powMod a (3 * 2 ^ n) (3 * 2 ^ n + 1) = 1)
    (half : powMod a (3 * 2 ^ n / 2) (3 * 2 ^ n + 1) ≠ 1)
    (third : powMod a (3 * 2 ^ n / 3) (3 * 2 ^ n + 1) ≠ 1) : (3 * 2 ^ n + 1).Prime := by
  have large : 1 < 3 * 2 ^ n + 1 := by
    have := Nat.two_pow_pos n
    omega
  refine lucas_primality _ (a : ZMod (3 * 2 ^ n + 1)) ((natCast_pow_eq_one_iff large).mpr whole) ?_
  intro r prime divides
  rw [Nat.add_sub_cancel] at divides ⊢
  rw [ne_eq, natCast_pow_eq_one_iff large]
  -- three and two are the only primes that divide what is one below
  rcases (Nat.Prime.dvd_mul prime).mp divides with three | two
  · rw [(Nat.prime_dvd_prime_iff_eq prime Nat.prime_three).mp three]
    exact third
  · rw [(Nat.prime_dvd_prime_iff_eq prime Nat.prime_two).mp (prime.dvd_of_dvd_pow two)]
    exact half

def p : Nat := 3 * 2 ^ 209 + 1

def q : Nat := 3 * 2 ^ 276 + 1

def key : PrivateKey := ⟨p * q, 5, (9 * 2 ^ 276 + 1) / 5⟩

theorem proper : key.Proper p q where
  first := prime_of_powMod (a := 7) (by decide +kernel) (by decide +kernel) (by decide +kernel)
  second := prime_of_powMod (a := 19) (by decide +kernel) (by decide +kernel) (by decide +kernel)
  distinct := by decide +kernel
  modulus := rfl
  inverse := by decide +kernel

def signer : Signer where
  algorithm := ⟨.sha256, .rsa⟩
  bits := PrivateKey.bits (.rsa key)
  signBytes := sign? key .sha256
  verifyBytes := verify key.toPublic .sha256

theorem signer_made : Signer.ofKeys (.rsa key) (.rsa key.toPublic) ⟨.sha256, .rsa⟩ = .ok signer := by
  rw [signer, ← PublicKey.verify_rsa]
  rfl

/-- The token of `x~`. -/
def token : String :=
  "00fc820853287953d16482fb220bff8e89a4dd1e37c2925714de92aa5e0c08" ++
    "37ac3472e52fb11e86737505d4f0d975cb4a7f8ab448f134b32a01c5acb704"

theorem token_given : signer.token? "x~" = some token := by decide +kernel

end Rsa.Sample

theorem Signer.rsa_token_unique_of_sample :
    Rsa.Sample.key.Proper Rsa.Sample.p Rsa.Sample.q ∧
      Rsa.Sample.signer.token? "x~" = some Rsa.Sample.token ∧
      ∀ other, Rsa.Sample.signer.accepts "x~" other = true ↔ other = Rsa.Sample.token :=
  ⟨Rsa.Sample.proper, Rsa.Sample.token_given,
    rsa_token_unique Rsa.Sample.proper (by decide +kernel) Rsa.Sample.signer_made Rsa.Sample.token_given⟩

end SoapRelay
