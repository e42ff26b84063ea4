import Mathlib.Algebra.Ring.Nat
import SoapRelay.Proofs.Fields

/-!
# The order of texts and of their bytes

UTF-8 keeps the order: a text is before another by its code points exactly if it is by its bytes. The
first byte of a character says how many there are and grows with that number, and the later bytes are
the digits of the code point to the base 64.
-/

namespace SoapRelay.Utf8

theorem cons_lt_cons {a b : Nat} {as bs : List UInt8} (small : a < 256) (small' : b < 256)
    (less : a < b ∨ a = b ∧ as < bs) : UInt8.ofNat a :: as < UInt8.ofNat b :: bs := by
  rw [List.cons_lt_cons_iff, UInt8.lt_iff_toNat_lt, UInt8.toNat_ofNat', UInt8.toNat_ofNat',
    Nat.mod_eq_of_lt small, Nat.mod_eq_of_lt small']
  exact less.imp_right fun ⟨same, later⟩ => ⟨congrArg _ same, later⟩

/-- The last bytes of a character, which hold six bits each. -/
def tail : Nat → Nat → List UInt8
  | 0, _ => []
  | n + 1, v => UInt8.ofNat (v / 64 ^ n % 64 + 128) :: tail n v

theorem tail_lt {n v w : Nat} (less : v % 64 ^ n < w % 64 ^ n) (cs ds : List UInt8) :
    tail n v ++ cs < tail n w ++ ds := by
  induction n with
  | zero =>
    rw [Nat.pow_zero, Nat.mod_one, Nat.mod_one] at less
    cases less
  | succ n ih =>
    apply cons_lt_cons (by omega) (by omega)
    rw [Nat.mod_pow_succ, Nat.mod_pow_succ] at less
    rcases Nat.lt_trichotomy (v / 64 ^ n % 64) (w / 64 ^ n % 64) with before | same | behind
    · exact .inl (Nat.add_lt_add_right before 128)
    · rw [same] at less
      exact .inr ⟨congrArg (· + 128) same, ih (Nat.lt_of_add_lt_add_right less)⟩
    · have digit := Nat.mul_le_mul_left (64 ^ n) (Nat.succ_le_of_lt behind)
      have below := Nat.mod_lt w (Nat.pow_pos (n := n) (show 0 < 64 by decide))
      rw [Nat.mul_succ] at digit
      omega

/-- How many bytes a character takes behind the first, and what is added to that to mark it. -/
inductive Width (v : Nat) : Nat → Nat → Prop
  | one (high : v < 0x80) : Width v 0 0
  | two (low : 0x80 ≤ v) (high : v < 0x800) : Width v 1 0xC0
  | three (low : 0x800 ≤ v) (high : v < 0x10000) : Width v 2 0xE0
  | four (low : 0x10000 ≤ v) (high : v < 0x110000) : Width v 3 0xF0

theorem utf8EncodeChar_eq (c : Char) : ∃ n mark, Width c.val.toNat n mark ∧
    String.utf8EncodeChar c = UInt8.ofNat (c.val.toNat / 64 ^ n + mark) :: tail n c.val.toNat := by
  have bound : c.val.toNat < 0x110000 := by
    rcases c.valid with low | high
    · omega
    · exact high.2
  unfold String.utf8EncodeChar
  generalize c.val.toNat = v at bound
  dsimp only
  split
  · rename_i high
    refine ⟨0, 0, .one (by omega), ?_⟩
    rw [Nat.pow_zero, Nat.div_one]
    rfl
  · split
    · rename_i low high
      refine ⟨1, 0xC0, .two (by omega) (by omega), ?_⟩
      have first : v / 64 % 32 = v / 64 := Nat.mod_eq_of_lt (by omega)
      simp only [tail, first, Nat.pow_zero, Nat.pow_one, Nat.div_one]
    · split
      · rename_i low high
        refine ⟨2, 0xE0, .three (by omega) (by omega), ?_⟩
        have first : v / 4096 % 16 = v / 4096 := Nat.mod_eq_of_lt (by omega)
        simp only [tail, first, Nat.pow_zero, Nat.pow_one, Nat.div_one, Nat.reducePow]
      · rename_i low
        refine ⟨3, 0xF0, .four (by omega) bound, ?_⟩
        have first : v / 262144 % 8 = v / 262144 := Nat.mod_eq_of_lt (by omega)
        simp only [tail, first, Nat.pow_zero, Nat.pow_one, Nat.div_one, Nat.reducePow]

theorem utf8EncodeChar_lt {c d : Char} (less : c < d) (cs ds : List UInt8) :
    String.utf8EncodeChar c ++ cs < String.utf8EncodeChar d ++ ds := by
  obtain ⟨n, mark, width, first⟩ := utf8EncodeChar_eq c
  obtain ⟨m, mark', width', second⟩ := utf8EncodeChar_eq d
  have less : c.val.toNat < d.val.toNat := less
  rw [first, second]
  generalize c.val.toNat = v at less width
  generalize d.val.toNat = w at less width'
  have small : v / 64 ^ n + mark < 256 := by cases width <;> omega
  have small' : w / 64 ^ m + mark' < 256 := by cases width' <;> omega
  apply cons_lt_cons small small'
  have order : v / 64 ^ n + mark < w / 64 ^ m + mark' ∨ n = m ∧ v / 64 ^ n + mark = w / 64 ^ m + mark' := by
    cases width <;> cases width' <;> omega
  refine order.imp_right fun ⟨same, lead⟩ => ⟨lead, ?_⟩
  subst same
  have marks : mark = mark' := by cases width <;> cases width' <;> rfl
  have split := Nat.div_add_mod v (64 ^ n)
  have split' := Nat.div_add_mod w (64 ^ n)
  have lead : v / 64 ^ n = w / 64 ^ n := by omega
  rw [lead] at split
  exact tail_lt (by omega) cs ds

theorem flatMap_lt {cs ds : List Char} (less : cs < ds) :
    cs.flatMap String.utf8EncodeChar < ds.flatMap String.utf8EncodeChar := by
  induction less with
  | nil =>
    rename_i d ds
    obtain ⟨_, _, _, first⟩ := utf8EncodeChar_eq d
    rw [List.flatMap_cons, first]
    exact List.Lex.nil
  | cons _ ih => exact List.append_left_lt ih
  | rel first => exact utf8EncodeChar_lt first _ _

/-- UTF-8 keeps the order of texts. -/
theorem bytes_lt_iff {s t : String} : bytes s < bytes t ↔ s < t := by
  have forth : ∀ {s t : String}, s < t → bytes s < bytes t := by
    intro s t less
    rw [← String.ofList_toList (s := s), ← String.ofList_toList (s := t), bytes_ofList, bytes_ofList]
    exact flatMap_lt less
  refine ⟨fun less => ?_, forth⟩
  by_contra behind
  by_cases same : t = s
  · rw [same] at less
    exact List.lt_irrefl _ less
  · exact List.lt_asymm less (forth (Std.lt_of_le_of_ne behind same))

end SoapRelay.Utf8
