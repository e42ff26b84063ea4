/-!
# Numbers as octet strings

Big-endian, most significant octet first.
-/

namespace SoapRelay.Octets

def toNat (bytes : List UInt8) : Nat :=
  bytes.foldl (fun n b => n * 256 + b.toNat) 0

/-- The `length` low octets of a number. -/
def ofNat : (length n : Nat) → List UInt8
  | 0, _ => []
  | length + 1, n => UInt8.ofNat (n / Nat.pow 256 length) :: ofNat length n

def size (n : Nat) : Nat :=
  if n = 0 then 0 else n.log2 / 8 + 1

/-- Cuts an octet string into blocks of `size`; a last shorter block is kept. -/
def blocks (size : Nat) (bytes : List UInt8) : List (List UInt8) :=
  if _h : size = 0 ∨ bytes = [] then []
  else bytes.take size :: blocks size (bytes.drop size)
termination_by bytes.length
decreasing_by
  have : 0 < bytes.length := List.length_pos_iff.2 fun e => _h (.inr e)
  simp only [List.length_drop]
  omega

end SoapRelay.Octets
