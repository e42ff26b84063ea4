import SoapRelay.Crypto.Sha2

/-!
# SHA-1

Blocks and padding are those of SHA-256.
-/

namespace SoapRelay.Sha1

@[inline] def rotl (x : UInt32) (n : UInt32) : UInt32 := (x <<< n) ||| (x >>> (32 - n))

structure State where
  a : UInt32
  b : UInt32
  c : UInt32
  d : UInt32
  e : UInt32

def start : State :=
  ⟨0x67452301, 0xefcdab89, 0x98badcfe, 0x10325476, 0xc3d2e1f0⟩

/-- The sixteen words of a block, extended to the eighty rounds. -/
def schedule (block : Array UInt32) : Array UInt32 :=
  (List.range 64).foldl (fun w i =>
    w.push (rotl (w.getD (i + 13) 0 ^^^ w.getD (i + 8) 0 ^^^ w.getD (i + 2) 0 ^^^ w.getD i 0) 1)) block

def mix (i : Nat) (b c d : UInt32) : UInt32 × UInt32 :=
  if i < 20 then (d ^^^ (b &&& (c ^^^ d)), 0x5a827999)
  else if i < 40 then (b ^^^ c ^^^ d, 0x6ed9eba1)
  else if i < 60 then ((b &&& c) ||| (b &&& d) ||| (c &&& d), 0x8f1bbcdc)
  else (b ^^^ c ^^^ d, 0xca62c1d6)

def round (w : Array UInt32) (s : State) (i : Nat) : State :=
  let (f, k) := mix i s.b s.c s.d
  ⟨rotl s.a 5 + f + s.e + k + w.getD i 0, s.a, rotl s.b 30, s.c, s.d⟩

def compress (s : State) (block : List UInt8) : State :=
  let words := (Octets.blocks 4 block).map fun w => UInt32.ofNat (Octets.toNat w)
  let t := (List.range 80).foldl (round (schedule words.toArray)) s
  ⟨s.a + t.a, s.b + t.b, s.c + t.c, s.d + t.d, s.e + t.e⟩

def digest (message : List UInt8) : List UInt8 :=
  let final := (Octets.blocks 64 (Sha2.padded 64 message)).foldl compress start
  [final.a, final.b, final.c, final.d, final.e].flatMap fun w => Octets.ofNat 4 w.toNat

end SoapRelay.Sha1
