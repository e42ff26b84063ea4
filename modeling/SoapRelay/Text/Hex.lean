/-!
# Hexadecimal text

`encode` writes two lower-case digits a byte, most significant digit first. `decode` works on the bytes
of the text, reads digits of either case, and refuses an odd number of them. So a byte string has many
spellings for `decode`, of which one is in lower case.
-/

namespace SoapRelay.Hex

/-- The lower-case digit of a value below sixteen. -/
def digit (v : Nat) : UInt8 :=
  if v < 10 then UInt8.ofNat (48 + v) else UInt8.ofNat (97 + (v - 10))

/-- Whether a byte is a digit in lower case. -/
def isLower (b : UInt8) : Bool :=
  let n := b.toNat
  (48 ≤ n && n ≤ 57) || (97 ≤ n && n ≤ 102)

/-- The value of a digit of either case, by its code. -/
def value? (n : Nat) : Option Nat :=
  if 48 ≤ n ∧ n ≤ 57 then some (n - 48)
  else if 97 ≤ n ∧ n ≤ 102 then some (n - 97 + 10)
  else if 65 ≤ n ∧ n ≤ 70 then some (n - 65 + 10)
  else none

def encode (bytes : List UInt8) : List UInt8 :=
  bytes.flatMap fun b => [digit (b.toNat / 16), digit (b.toNat % 16)]

def decode : List UInt8 → Option (List UInt8)
  | [] => some []
  | [_] => none
  | h :: l :: rest => do
    let high ← value? h.toNat
    let low ← value? l.toNat
    let bytes ← decode rest
    return UInt8.ofNat (16 * high + low) :: bytes

def text (bytes : List UInt8) : String :=
  String.ofList ((encode bytes).map fun b => Char.ofNat b.toNat)

end SoapRelay.Hex
