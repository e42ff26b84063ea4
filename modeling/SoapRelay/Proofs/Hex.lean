import SoapRelay.Proofs.Fields
import SoapRelay.Signature.Signer

/-!
# Hexadecimal text is read back

What is written for a byte string is read as that byte string, and it is the only text in lower case that
is. It holds no token separator.
-/

namespace SoapRelay

namespace Hex

theorem value?_digit {v : Nat} (h : v < 16) : value? (digit v).toNat = some v := by
  have all : ∀ v < 16, value? (digit v).toNat = some v := by decide
  exact all v h

theorem isLower_digit {v : Nat} (h : v < 16) : isLower (digit v) = true := by
  have all : ∀ v < 16, isLower (digit v) = true := by decide
  exact all v h

theorem isLower_iff {b : UInt8} :
    isLower b = true ↔ 48 ≤ b.toNat ∧ b.toNat ≤ 57 ∨ 97 ≤ b.toNat ∧ b.toNat ≤ 102 := by
  simp [isLower]

/-- The byte that is read as a value in lower case is the one that is written for it. -/
theorem digit_of_value? {b : UInt8} {v : Nat} (lower : isLower b = true) (read : value? b.toNat = some v) :
    v < 16 ∧ digit v = b := by
  rcases isLower_iff.mp lower with numeral | letter
  · rw [value?, if_pos numeral] at read
    obtain rfl := Option.some.inj read
    refine ⟨by omega, ?_⟩
    rw [digit, if_pos (by omega), Nat.add_sub_of_le numeral.1, UInt8.ofNat_toNat]
  · have later : ¬(48 ≤ b.toNat ∧ b.toNat ≤ 57) := by omega
    rw [value?, if_neg later, if_pos letter] at read
    obtain rfl := Option.some.inj read
    refine ⟨by omega, ?_⟩
    rw [digit, if_neg (by omega), Nat.add_sub_cancel, Nat.add_sub_of_le letter.1, UInt8.ofNat_toNat]

theorem encode_cons (b : UInt8) (bs : List UInt8) :
    encode (b :: bs) = digit (b.toNat / 16) :: digit (b.toNat % 16) :: encode bs :=
  rfl

theorem decode_encode (bs : List UInt8) : decode (encode bs) = some bs := by
  induction bs with
  | nil => rfl
  | cons b rest ih =>
    have small := b.toNat_lt
    have high := value?_digit (v := b.toNat / 16) (by omega)
    have low := value?_digit (v := b.toNat % 16) (by omega)
    have whole : 16 * (b.toNat / 16) + b.toNat % 16 = b.toNat := by omega
    simp only [encode_cons, decode, high, low, ih, Option.bind_eq_bind, Option.bind_some, whole, UInt8.ofNat_toNat]
    rfl

theorem isLower_of_mem_encode {bs : List UInt8} {d : UInt8} (member : d ∈ encode bs) : isLower d = true := by
  obtain ⟨b, _, digits⟩ := List.mem_flatMap.mp member
  have small := b.toNat_lt
  rcases List.mem_pair.mp digits with rfl | rfl
  · exact isLower_digit (by omega)
  · exact isLower_digit (by omega)

theorem length_encode (bs : List UInt8) : (encode bs).length = 2 * bs.length := by
  induction bs with
  | nil => rfl
  | cons b bs ih => rw [encode_cons, List.length_cons, List.length_cons, ih, List.length_cons, Nat.mul_succ]

theorem encode_of_decode {digits bs : List UInt8} (lower : digits.all isLower = true)
    (read : decode digits = some bs) : encode bs = digits := by
  induction digits using decode.induct generalizing bs with
  | case1 =>
    obtain rfl := Option.some.inj read
    rfl
  | case2 d => cases read
  | case3 h l rest ih =>
    simp only [List.all_cons, Bool.and_eq_true] at lower
    obtain ⟨upper, lower, others⟩ := lower
    simp only [decode, Option.bind_eq_bind, Option.bind_eq_some_iff] at read
    obtain ⟨high, first, low, second, bytes, later, whole⟩ := read
    obtain rfl := Option.some.inj whole
    obtain ⟨small, rfl⟩ := digit_of_value? upper first
    obtain ⟨small', rfl⟩ := digit_of_value? lower second
    have byte : 16 * high + low < UInt8.size := by simp only [UInt8.size]; omega
    have value : (UInt8.ofNat (16 * high + low)).toNat = 16 * high + low := UInt8.toNat_ofNat_of_lt' byte
    have quotient : (16 * high + low) / 16 = high := by omega
    have remainder : (16 * high + low) % 16 = low := by omega
    rw [encode_cons, value, quotient, remainder, ih others later]

/-- In lower case a byte string is read from its written form and from nothing else. -/
theorem spells_iff {digits bs : List UInt8} :
    digits.all isLower = true ∧ decode digits = some bs ↔ encode bs = digits := by
  constructor
  · rintro ⟨lower, read⟩
    exact encode_of_decode lower read
  · rintro rfl
    exact ⟨List.all_eq_true.mpr fun _ => isLower_of_mem_encode, decode_encode bs⟩

theorem bytes_text (bs : List UInt8) : Utf8.bytes (text bs) = encode bs := by
  have single : ∀ d ∈ encode bs, String.utf8EncodeChar (Char.ofNat d.toNat) = [d] := by
    intro d member
    have lower := isLower_iff.mp (isLower_of_mem_encode member)
    exact utf8EncodeChar_ofNat (by omega)
  rw [text, Utf8.bytes_ofList, List.flatMap_map, List.flatMap_congr single]
  exact List.flatMap_singleton' _

theorem mem_text {bs : List UInt8} {c : Char} (member : c ∈ (text bs).toList) :
    48 ≤ c.toNat ∧ c.toNat ≤ 57 ∨ 97 ≤ c.toNat ∧ c.toNat ≤ 102 := by
  rw [text, String.toList_ofList] at member
  obtain ⟨d, written, rfl⟩ := List.mem_map.mp member
  rw [toNat_char_ofNat]
  exact isLower_iff.mp (isLower_of_mem_encode written)

theorem separator_not_mem_text (bs : List UInt8) : separator ∉ (text bs).toList := by
  intro member
  have range := mem_text member
  rw [show separator.toNat = 126 from rfl] at range
  omega

end Hex

/-- The written form of a signature stands for that signature. -/
theorem Signer.accepts_text (signer : Signer) (content : String) (signature : List UInt8) :
    signer.accepts content (Hex.text signature) = signer.verifyBytes (Utf8.bytes content) signature := by
  obtain ⟨lower, read⟩ := Hex.spells_iff.mpr (Hex.bytes_text signature).symm
  simp only [accepts, lower, read, if_true]

theorem Signer.separator_not_mem_token {signer : Signer} {content token : String}
    (given : signer.token? content = some token) : separator ∉ token.toList := by
  obtain ⟨signature, _, rfl⟩ := Option.map_eq_some_iff.mp given
  exact Hex.separator_not_mem_text signature

end SoapRelay
