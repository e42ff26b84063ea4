import SoapRelay.Crypto.Octets

/-!
# SHA-2

The SHA-2 digests differ in their word only: 32 bits for SHA-256, 64 bits for SHA-384 and SHA-512.
`Word` collects what depends on it, and the compression function is written once. The constants
are the leading bits of the fractional parts of cube and square roots of the first primes, so
those of the short word are the upper halves of those of the long one.
-/

namespace SoapRelay.Sha2

/-- Round constants of the long word: cube roots of the first eighty primes. -/
def cubeRoots : Array UInt64 :=
  #[0x428a2f98d728ae22, 0x7137449123ef65cd, 0xb5c0fbcfec4d3b2f, 0xe9b5dba58189dbbc,
    0x3956c25bf348b538, 0x59f111f1b605d019, 0x923f82a4af194f9b, 0xab1c5ed5da6d8118,
    0xd807aa98a3030242, 0x12835b0145706fbe, 0x243185be4ee4b28c, 0x550c7dc3d5ffb4e2,
    0x72be5d74f27b896f, 0x80deb1fe3b1696b1, 0x9bdc06a725c71235, 0xc19bf174cf692694,
    0xe49b69c19ef14ad2, 0xefbe4786384f25e3, 0x0fc19dc68b8cd5b5, 0x240ca1cc77ac9c65,
    0x2de92c6f592b0275, 0x4a7484aa6ea6e483, 0x5cb0a9dcbd41fbd4, 0x76f988da831153b5,
    0x983e5152ee66dfab, 0xa831c66d2db43210, 0xb00327c898fb213f, 0xbf597fc7beef0ee4,
    0xc6e00bf33da88fc2, 0xd5a79147930aa725, 0x06ca6351e003826f, 0x142929670a0e6e70,
    0x27b70a8546d22ffc, 0x2e1b21385c26c926, 0x4d2c6dfc5ac42aed, 0x53380d139d95b3df,
    0x650a73548baf63de, 0x766a0abb3c77b2a8, 0x81c2c92e47edaee6, 0x92722c851482353b,
    0xa2bfe8a14cf10364, 0xa81a664bbc423001, 0xc24b8b70d0f89791, 0xc76c51a30654be30,
    0xd192e819d6ef5218, 0xd69906245565a910, 0xf40e35855771202a, 0x106aa07032bbd1b8,
    0x19a4c116b8d2d0c8, 0x1e376c085141ab53, 0x2748774cdf8eeb99, 0x34b0bcb5e19b48a8,
    0x391c0cb3c5c95a63, 0x4ed8aa4ae3418acb, 0x5b9cca4f7763e373, 0x682e6ff3d6b2b8a3,
    0x748f82ee5defb2fc, 0x78a5636f43172f60, 0x84c87814a1f0ab72, 0x8cc702081a6439ec,
    0x90befffa23631e28, 0xa4506cebde82bde9, 0xbef9a3f7b2c67915, 0xc67178f2e372532b,
    0xca273eceea26619c, 0xd186b8c721c0c207, 0xeada7dd6cde0eb1e, 0xf57d4f7fee6ed178,
    0x06f067aa72176fba, 0x0a637dc5a2c898a6, 0x113f9804bef90dae, 0x1b710b35131c471b,
    0x28db77f523047d84, 0x32caab7b40c72493, 0x3c9ebe0a15c9bebc, 0x431d67c49c100d4c,
    0x4cc5d4becb3e42b6, 0x597f299cfc657e2a, 0x5fcb6fab3ad6faec, 0x6c44198c4a475817]

/-- Square roots of the first eight primes, where SHA-256 and SHA-512 start. -/
def squareRoots : Array UInt64 :=
  #[0x6a09e667f3bcc908, 0xbb67ae8584caa73b, 0x3c6ef372fe94f82b, 0xa54ff53a5f1d36f1,
    0x510e527fade682d1, 0x9b05688c2b3e6c1f, 0x1f83d9abfb41bd6b, 0x5be0cd19137e2179]

/-- Square roots of the next eight primes, where SHA-384 starts. -/
def nextSquareRoots : Array UInt64 :=
  #[0xcbbb9d5dc1059ed8, 0x629a292a367cd507, 0x9159015a3070dd17, 0x152fecd8f70e5939,
    0x67332667ffc00b31, 0x8eb44a8768581511, 0xdb0c2e0d64f98fa7, 0x47b5481dbefa4fa4]

/-- What a digest needs to know of its word. -/
class Word (α : Type) extends Add α, XorOp α, AndOp α, Inhabited α where
  bytes : Nat
  bigSigma0 : α → α
  bigSigma1 : α → α
  smallSigma0 : α → α
  smallSigma1 : α → α
  constants : Array α
  ofNat : Nat → α
  toNat : α → Nat

@[inline] def rotr32 (x : UInt32) (n : UInt32) : UInt32 := (x >>> n) ||| (x <<< (32 - n))

@[inline] def rotr64 (x : UInt64) (n : UInt64) : UInt64 := (x >>> n) ||| (x <<< (64 - n))

def upperHalves (ws : Array UInt64) : Array UInt32 :=
  ws.map fun (w : UInt64) => (w >>> 32).toUInt32

/-- The sixty-four constants of the short word. -/
def shortConstants : Array UInt32 :=
  upperHalves (cubeRoots.extract 0 64)

instance : Word UInt32 where
  bytes := 4
  bigSigma0 x := rotr32 x 2 ^^^ rotr32 x 13 ^^^ rotr32 x 22
  bigSigma1 x := rotr32 x 6 ^^^ rotr32 x 11 ^^^ rotr32 x 25
  smallSigma0 x := rotr32 x 7 ^^^ rotr32 x 18 ^^^ (x >>> 3)
  smallSigma1 x := rotr32 x 17 ^^^ rotr32 x 19 ^^^ (x >>> 10)
  constants := shortConstants
  ofNat := UInt32.ofNat
  toNat := UInt32.toNat

instance : Word UInt64 where
  bytes := 8
  bigSigma0 x := rotr64 x 28 ^^^ rotr64 x 34 ^^^ rotr64 x 39
  bigSigma1 x := rotr64 x 14 ^^^ rotr64 x 18 ^^^ rotr64 x 41
  smallSigma0 x := rotr64 x 1 ^^^ rotr64 x 8 ^^^ (x >>> 7)
  smallSigma1 x := rotr64 x 19 ^^^ rotr64 x 61 ^^^ (x >>> 6)
  constants := cubeRoots
  ofNat := UInt64.ofNat
  toNat := UInt64.toNat

structure State (α : Type) where
  a : α
  b : α
  c : α
  d : α
  e : α
  f : α
  g : α
  h : α

variable {α : Type} [Word α]

def State.ofArray (ws : Array α) : State α :=
  ⟨ws.getD 0 default, ws.getD 1 default, ws.getD 2 default, ws.getD 3 default,
    ws.getD 4 default, ws.getD 5 default, ws.getD 6 default, ws.getD 7 default⟩

def State.toList (s : State α) : List α :=
  [s.a, s.b, s.c, s.d, s.e, s.f, s.g, s.h]

/-- The sixteen words of a block, extended to one word a round. -/
@[specialize] def schedule (block : Array α) : Array α :=
  (List.range (Word.constants (α := α)).size).foldl (fun w i =>
    if i < 16 then w
    else w.push (Word.smallSigma1 (w.getD (i - 2) default) + w.getD (i - 7) default
      + Word.smallSigma0 (w.getD (i - 15) default) + w.getD (i - 16) default)) block

@[specialize] def round (s : State α) (constant word : α) : State α :=
  let choice := s.g ^^^ (s.e &&& (s.f ^^^ s.g))
  let majority := (s.a &&& s.b) ^^^ (s.a &&& s.c) ^^^ (s.b &&& s.c)
  let t₁ := s.h + Word.bigSigma1 s.e + choice + constant + word
  let t₂ := Word.bigSigma0 s.a + majority
  ⟨t₁ + t₂, s.a, s.b, s.c, s.d + t₁, s.e, s.f, s.g⟩

@[specialize] def compress (s : State α) (block : List UInt8) : State α :=
  let words := (Octets.blocks (Word.bytes α) block).map fun w => Word.ofNat (Octets.toNat w)
  let w := schedule (α := α) words.toArray
  let t := (List.range w.size).foldl
    (fun s i => round s ((Word.constants (α := α)).getD i default) (w.getD i default)) s
  ⟨s.a + t.a, s.b + t.b, s.c + t.c, s.d + t.d, s.e + t.e, s.f + t.f, s.g + t.g, s.h + t.h⟩

/-- The message with a one bit, zeros, and its length in bits, up to whole blocks. -/
def padded (blockSize : Nat) (message : List UInt8) : List UInt8 :=
  let lengthSize := blockSize / 8
  let open_ := message.length + 1 + lengthSize
  let zeros := (blockSize - open_ % blockSize) % blockSize
  message ++ 0x80 :: (List.replicate zeros 0 ++ Octets.ofNat lengthSize (8 * message.length))

@[specialize] def digest (start : Array α) (length : Nat) (message : List UInt8) : List UInt8 :=
  let blockSize := 16 * Word.bytes α
  let final := (Octets.blocks blockSize (padded blockSize message)).foldl compress (State.ofArray start)
  (final.toList.flatMap fun w => Octets.ofNat (Word.bytes α) (Word.toNat w)).take length

def sha256 (message : List UInt8) : List UInt8 :=
  digest (upperHalves squareRoots) 32 message

def sha384 (message : List UInt8) : List UInt8 :=
  digest nextSquareRoots 48 message

def sha512 (message : List UInt8) : List UInt8 :=
  digest squareRoots 64 message

end SoapRelay.Sha2
