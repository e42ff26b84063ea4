import Mathlib.Tactic.Ring
import SoapRelay.Crypto.Octets

/-!
# Octet strings and their numbers

Octet strings of one length are told apart by their numbers, and are the numbers below a power of 256.
-/

namespace SoapRelay.Octets

theorem foldl_octets (bytes : List UInt8) (n : Nat) :
    bytes.foldl (fun n b => n * 256 + b.toNat) n = n * 256 ^ bytes.length + toNat bytes := by
  unfold toNat
  induction bytes generalizing n with
  | nil => simp
  | cons b rest ih =>
    rw [List.foldl_cons, List.foldl_cons, ih, ih (0 * 256 + b.toNat), List.length_cons]
    ring

theorem toNat_cons (b : UInt8) (bytes : List UInt8) :
    toNat (b :: bytes) = b.toNat * 256 ^ bytes.length + toNat bytes := by
  calc toNat (b :: bytes)
      = (0 * 256 + b.toNat) * 256 ^ bytes.length + toNat bytes := foldl_octets bytes (0 * 256 + b.toNat)
    _ = b.toNat * 256 ^ bytes.length + toNat bytes := by rw [Nat.zero_mul, Nat.zero_add]

theorem toNat_lt (bytes : List UInt8) : toNat bytes < 256 ^ bytes.length := by
  induction bytes with
  | nil => decide
  | cons b rest ih =>
    have small := b.toNat_lt
    calc toNat (b :: rest)
        = b.toNat * 256 ^ rest.length + toNat rest := toNat_cons b rest
      _ < b.toNat * 256 ^ rest.length + 256 ^ rest.length := by omega
      _ = (b.toNat + 1) * 256 ^ rest.length := by ring
      _ ≤ 256 * 256 ^ rest.length := Nat.mul_le_mul_right _ (by omega)
      _ = 256 ^ (b :: rest).length := by rw [List.length_cons]; ring

theorem length_ofNat (length n : Nat) : (ofNat length n).length = length := by
  induction length with
  | zero => rfl
  | succ length ih => rw [ofNat, List.length_cons, ih]

/-- The octets of a number are those of what is left of it below their power of 256. -/
theorem ofNat_add_mul (length n high : Nat) : ofNat length (high * 256 ^ length + n) = ofNat length n := by
  induction length generalizing high with
  | zero => rfl
  | succ length ih =>
    have positive : 0 < 256 ^ length := Nat.pow_pos (by decide)
    have split : high * 256 ^ (length + 1) + n = high * 256 * 256 ^ length + n := by ring
    have first : (high * 256 * 256 ^ length + n) / 256 ^ length = high * 256 + n / 256 ^ length := by
      rw [Nat.add_comm, Nat.add_mul_div_right _ _ positive, Nat.add_comm]
    simp only [ofNat, Nat.pow_eq, split, first, ih]
    congr 1
    apply UInt8.toNat_inj.mp
    simp

theorem ofNat_toNat (bytes : List UInt8) : ofNat bytes.length (toNat bytes) = bytes := by
  induction bytes with
  | nil => rfl
  | cons b rest ih =>
    have first : (b.toNat * 256 ^ rest.length + toNat rest) / 256 ^ rest.length = b.toNat := by
      rw [Nat.add_comm, Nat.add_mul_div_right _ _ (Nat.pow_pos (by decide)), Nat.div_eq_of_lt (toNat_lt rest),
        Nat.zero_add]
    rw [toNat_cons, List.length_cons, ofNat, Nat.pow_eq, first, ofNat_add_mul, ih, UInt8.ofNat_toNat]

theorem toNat_ofNat {length n : Nat} (small : n < 256 ^ length) : toNat (ofNat length n) = n := by
  induction length generalizing n with
  | zero =>
    obtain rfl : n = 0 := by simpa using small
    rfl
  | succ length ih =>
    have positive : 0 < 256 ^ length := Nat.pow_pos (by decide)
    have high : n / 256 ^ length < 256 := by
      rw [Nat.div_lt_iff_lt_mul positive]
      rw [Nat.pow_succ] at small
      omega
    have whole : n / 256 ^ length * 256 ^ length + n % 256 ^ length = n := Nat.div_add_mod' n _
    -- the lower octets do not depend on the top one
    have low : ofNat length n = ofNat length (n % 256 ^ length) := by
      conv_lhs => rw [← whole, ofNat_add_mul]
    rw [ofNat, toNat_cons, length_ofNat, Nat.pow_eq, low, ih (Nat.mod_lt _ positive), UInt8.toNat_ofNat_of_lt' high,
      whole]

theorem eq_of_toNat {a b : List UInt8} (length : a.length = b.length) (same : toNat a = toNat b) : a = b := by
  rw [← ofNat_toNat a, ← ofNat_toNat b, length, same]

/-- A number has no octets to spare. -/
theorem pow_size_le {n : Nat} (positive : 0 < n) : 256 ^ (size n - 1) ≤ n := by
  have nonzero : n ≠ 0 := by omega
  have octets : size n - 1 = n.log2 / 8 := by
    unfold size
    rw [if_neg nonzero]
    omega
  calc 256 ^ (size n - 1)
      = 2 ^ (8 * (n.log2 / 8)) := by rw [octets, Nat.pow_mul]
    _ ≤ 2 ^ n.log2 := Nat.pow_le_pow_right (by decide) (by omega)
    _ ≤ n := Nat.log2_self_le nonzero

theorem lt_pow_size (n : Nat) : n < 256 ^ size n := by
  unfold size
  split
  · omega
  · calc n
        < 2 ^ (n.log2 + 1) := Nat.lt_log2_self
      _ ≤ 2 ^ (8 * (n.log2 / 8 + 1)) := Nat.pow_le_pow_right (by decide) (by omega)
      _ = 256 ^ (n.log2 / 8 + 1) := by rw [Nat.pow_mul]

end SoapRelay.Octets
