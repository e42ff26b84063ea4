import SoapRelay.Crypto.Digest

/-!
# Chains of cipher blocks

Decrypting a chain in which each block was added to the ciphertext before it, for any block cipher.
The last block ends in padding: bytes that each tell how many of them there are.
-/

namespace SoapRelay.Chain

/-- Decrypts blocks with `decrypt`; the first one was added to `before`. -/
def unchain (decrypt : List UInt8 → List UInt8) : (before : List UInt8) → List (List UInt8) → List UInt8
  | _, [] => []
  | before, block :: rest => xorBytes before (decrypt block) ++ unchain decrypt block rest

/-- The plaintext without its padding of at most `size` bytes. -/
def unpad? (size : Nat) (plain : List UInt8) : Option (List UInt8) := do
  let n := (← plain.getLast?).toNat
  if n = 0 ∨ size < n ∨ plain.length < n then none
  else
    let (text, padding) := plain.splitAt (plain.length - n)
    if padding.all (·.toNat = n) then some text else none

/-- Decrypts a chain of blocks of `size` bytes that starts from `start`. -/
def decrypt? (size : Nat) (decrypt : List UInt8 → List UInt8) (start cipher : List UInt8) :
    Option (List UInt8) :=
  if cipher = [] ∨ cipher.length % size ≠ 0 ∨ start.length ≠ size then none
  else unpad? size (unchain decrypt start (Octets.blocks size cipher))

end SoapRelay.Chain
