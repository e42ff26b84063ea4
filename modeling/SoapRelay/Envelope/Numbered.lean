import SoapRelay.Envelope.CallId

/-!
# Numbered call ids

A supply of ids: the id of a number is its 32 decimal digits.
-/

namespace SoapRelay

def decimalDigit (n : Nat) : Char :=
  Char.ofNat (48 + n % 10)

theorem decimalDigit_ne_separator (n : Nat) : decimalDigit n ≠ separator := by
  have small : n % 10 < 10 := Nat.mod_lt _ (by decide)
  have all : ∀ m < 10, Char.ofNat (48 + m) ≠ '~' := by decide
  exact all _ small

/-- The low decimal digits of a number, most significant first. -/
def decimalDigits : (count n : Nat) → List Char
  | 0, _ => []
  | count + 1, n => decimalDigit (n / Nat.pow 10 count) :: decimalDigits count n

theorem separator_not_mem_decimalDigits (count n : Nat) : separator ∉ decimalDigits count n := by
  induction count with
  | zero => simp [decimalDigits]
  | succ count ih =>
    simp only [decimalDigits, List.mem_cons, not_or]
    exact ⟨fun h => decimalDigit_ne_separator _ h.symm, ih⟩

def CallId.numbered (n : Nat) : CallId where
  text := String.ofList (decimalDigits 32 n)
  not_empty h := by
    have : (String.ofList (decimalDigits 32 n)).toList = [] := by rw [h]; rfl
    simp [decimalDigits] at this
  no_separator := by
    rw [String.toList_ofList]
    exact separator_not_mem_decimalDigits 32 n

end SoapRelay
