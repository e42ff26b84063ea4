import Mathlib.Data.Nat.ModEq
import Mathlib.FieldTheory.Finite.Basic
import SoapRelay.Crypto.Rsa
import SoapRelay.Proofs.Octets

/-!
# The one signature of a content

Raising to the exponents of a proper key undoes itself both ways, so of all byte strings exactly the one
that signing produces is accepted.
-/

namespace SoapRelay.Rsa

/-- The modulus is the product of two primes, and the exponents are inverse to each other. -/
structure PrivateKey.Proper (k : PrivateKey) (p q : Nat) : Prop where
  first : p.Prime
  second : q.Prime
  distinct : p ≠ q
  modulus : k.modulus = p * q
  inverse : k.publicExponent * k.exponent ≡ 1 [MOD (p - 1).lcm (q - 1)]

/-! ### Powers -/

theorem pow_modEq_self {p a : Nat} (prime : p.Prime) (positive : 0 < a) (one : a ≡ 1 [MOD p - 1]) (m : Nat) :
    m ^ a ≡ m [MOD p] := by
  have : Fact p.Prime := ⟨prime⟩
  obtain ⟨turns, exceeds⟩ : p - 1 ∣ a - 1 := (Nat.modEq_iff_dvd' positive).mp one.symm
  have exponent : a = (p - 1) * turns + 1 := by omega
  apply (ZMod.natCast_eq_natCast_iff _ _ _).mp
  rw [Nat.cast_pow, exponent, pow_succ, pow_mul]
  -- zero is its own power; any other number has a multiple of its order in the exponent
  by_cases zero : (m : ZMod p) = 0
  · rw [zero, mul_zero]
  · rw [ZMod.pow_card_sub_one_eq_one zero, one_pow, one_mul]

namespace PrivateKey.Proper

variable {k : PrivateKey} {p q : Nat} (proper : k.Proper p q)

include proper

theorem modulus_pos : 0 < k.modulus := by
  rw [proper.modulus]
  exact Nat.mul_pos proper.first.pos proper.second.pos

theorem exponents_pos : 0 < k.publicExponent * k.exponent := by
  have two := proper.first.two_le
  have two' := proper.second.two_le
  have distinct := proper.distinct
  by_contra none
  have zero : k.publicExponent * k.exponent = 0 := by omega
  have divides : (p - 1).lcm (q - 1) ∣ 1 := (Nat.modEq_zero_iff_dvd.mp (zero ▸ proper.inverse).symm)
  -- zero and one agree modulo one alone, and then both primes were two
  have first : p - 1 = 1 := Nat.dvd_one.mp ((Nat.dvd_lcm_left _ _).trans divides)
  have second : q - 1 = 1 := Nat.dvd_one.mp ((Nat.dvd_lcm_right _ _).trans divides)
  omega

theorem pow_inverse (m : Nat) : m ^ (k.publicExponent * k.exponent) ≡ m [MOD k.modulus] := by
  have coprime : p.Coprime q := (Nat.coprime_primes proper.first proper.second).mpr proper.distinct
  have first := pow_modEq_self proper.first proper.exponents_pos (proper.inverse.of_dvd (Nat.dvd_lcm_left _ _)) m
  have second := pow_modEq_self proper.second proper.exponents_pos (proper.inverse.of_dvd (Nat.dvd_lcm_right _ _)) m
  rw [proper.modulus]
  exact (Nat.modEq_and_modEq_iff_modEq_mul coprime).mp ⟨first, second⟩

/-- Either power undoes the other on the numbers below the modulus. -/
theorem pow_eq_iff {s m : Nat} (hs : s < k.modulus) (hm : m < k.modulus) :
    s ^ k.publicExponent % k.modulus = m ↔ m ^ k.exponent % k.modulus = s := by
  constructor
  · rintro rfl
    calc (s ^ k.publicExponent % k.modulus) ^ k.exponent % k.modulus
        = s ^ (k.publicExponent * k.exponent) % k.modulus := by rw [← Nat.pow_mod, ← pow_mul]
      _ = s % k.modulus := proper.pow_inverse s
      _ = s := Nat.mod_eq_of_lt hs
  · rintro rfl
    calc (m ^ k.exponent % k.modulus) ^ k.publicExponent % k.modulus
        = m ^ (k.publicExponent * k.exponent) % k.modulus := by
          rw [← Nat.pow_mod, ← pow_mul, Nat.mul_comm]
      _ = m % k.modulus := proper.pow_inverse m
      _ = m := Nat.mod_eq_of_lt hm

end PrivateKey.Proper

/-! ### Signed blocks -/

section Block

variable {d : Digest} {content block signature : List UInt8} {length modulus : Nat}

theorem exists_signedBlock (built : signedBlock? d length content = some block) :
    ∃ tail, block = 0x00 :: tail ∧ tail.length + 1 = length := by
  unfold signedBlock? at built
  dsimp only at built
  split at built
  · cases built
  · obtain rfl := Option.some.inj built
    refine ⟨_, rfl, ?_⟩
    simp only [List.length_cons, List.length_append, List.length_replicate] at *
    omega

/-- The first byte of a block is zero, so as a number it is below every modulus of its length. -/
theorem signedBlock?_lt (positive : 0 < modulus)
    (built : signedBlock? d (blockLength modulus) content = some block) : Octets.toNat block < modulus := by
  obtain ⟨tail, rfl, length⟩ := exists_signedBlock built
  have octets : tail.length = Octets.size modulus - 1 := by
    rw [← blockLength, ← length]
    rfl
  calc Octets.toNat (0x00 :: tail)
      = 0 * 256 ^ tail.length + Octets.toNat tail := Octets.toNat_cons 0x00 tail
    _ = Octets.toNat tail := by rw [Nat.zero_mul, Nat.zero_add]
    _ < 256 ^ tail.length := Octets.toNat_lt tail
    _ = 256 ^ (Octets.size modulus - 1) := by rw [octets]
    _ ≤ modulus := Octets.pow_size_le positive

theorem sign?_eq_some_iff {k : PrivateKey} :
    sign? k d content = some signature ↔ ∃ block, signedBlock? d (blockLength k.modulus) content = some block ∧
      Octets.ofNat (blockLength k.modulus) (Octets.toNat block ^ k.exponent % k.modulus) = signature := by
  simp only [sign?, Option.map_eq_some_iff, powMod_eq, Nat.pow_eq]

theorem ofNat_eq_block_iff {n : Nat} (small : n < modulus)
    (built : signedBlock? d (blockLength modulus) content = some block) :
    Octets.ofNat (blockLength modulus) n = block ↔ n = Octets.toNat block := by
  have fits : n < 256 ^ blockLength modulus := Nat.lt_trans small (Octets.lt_pow_size modulus)
  obtain ⟨tail, rfl, length⟩ := exists_signedBlock built
  constructor
  · intro same
    rw [← same, Octets.toNat_ofNat fits]
  · rintro rfl
    rw [← length]
    exact Octets.ofNat_toNat (0x00 :: tail)

theorem verify_eq_true_iff {k : PublicKey} (positive : 0 < k.modulus) :
    verify k d content signature = true ↔ ∃ block, signedBlock? d (blockLength k.modulus) content = some block ∧
      signature.length = blockLength k.modulus ∧ Octets.toNat signature < k.modulus ∧
      Octets.toNat signature ^ k.exponent % k.modulus = Octets.toNat block := by
  unfold verify
  dsimp only
  cases built : signedBlock? d (blockLength k.modulus) content with
  | none => simp
  | some block =>
    have same := ofNat_eq_block_iff (Nat.mod_lt (Octets.toNat signature ^ k.exponent) positive) built
    simp [powMod_eq, same, and_assoc]

end Block

/-- Under a proper key, what signing produces is accepted, and nothing else is. -/
theorem PrivateKey.Proper.verify_iff {k : PrivateKey} {p q : Nat} (proper : k.Proper p q) {d : Digest}
    {content signature : List UInt8} (signed : sign? k d content = some signature) (other : List UInt8) :
    verify k.toPublic d content other = true ↔ other = signature := by
  obtain ⟨block, built, rfl⟩ := sign?_eq_some_iff.mp signed
  have positive := proper.modulus_pos
  have small := signedBlock?_lt positive built
  have reduced : Octets.toNat block ^ k.exponent % k.modulus < k.modulus := Nat.mod_lt _ positive
  have value := Octets.toNat_ofNat (Nat.lt_trans reduced (Octets.lt_pow_size k.modulus))
  constructor
  · intro verified
    obtain ⟨_, again, length, below, raised⟩ := (verify_eq_true_iff positive).mp verified
    obtain rfl := Option.some.inj (built.symm.trans again)
    apply Octets.eq_of_toNat
    · rw [Octets.length_ofNat]
      exact length
    · exact ((proper.pow_eq_iff below small).mp raised).symm.trans value.symm
  · rintro rfl
    refine (verify_eq_true_iff positive).mpr ⟨block, built, Octets.length_ofNat _ _, ?_⟩
    have raised := (proper.pow_eq_iff reduced small).mpr rfl
    exact ⟨value.trans_lt reduced, value.symm ▸ raised⟩

end SoapRelay.Rsa
