import SoapRelay.Crypto.Octets

/-!
# Triple DES, decrypting

A block of 64 bits goes three times through sixteen rounds, each of which adds a function of one half
to the other half. The round keys in the opposite order undo the rounds, so one function runs in both
directions. Bits are numbered from one, the highest bit first.
-/

namespace SoapRelay.TripleDes

/-- The bits at some places of a number that is `width` bits wide. -/
def pick (width : Nat) (places : List Nat) (n : Nat) : Nat :=
  places.foldl (fun picked place => picked * 2 + n / Nat.pow 2 (width - place) % 2) 0

/-! ### Places -/

/-- Where the bits of a block come from before the first round. -/
def initial : List Nat :=
  (List.range 64).map fun i => (if i < 32 then 58 + 2 * (i / 8) else 49 + 2 * (i / 8)) - 8 * (i % 8)

/-- Where they come from after the last one. -/
def final : List Nat :=
  (List.range 64).map fun i => initial.idxOf (i + 1) + 1

/-- Eight groups of four bits, each with its neighbours. -/
def widened : List Nat :=
  (List.range 48).map fun i => (4 * (i / 6) + i % 6 + 31) % 32 + 1

/-- Where the bits of the eight substitutes go. -/
def spread : List Nat :=
  [16, 7, 20, 21, 29, 12, 28, 17, 1, 15, 23, 26, 5, 18, 31, 10,
    2, 8, 24, 14, 32, 27, 3, 9, 19, 13, 30, 6, 22, 11, 4, 25]

/-- The bits of a key that count, in two halves. -/
def upperKey : List Nat :=
  [57, 49, 41, 33, 25, 17, 9, 1, 58, 50, 42, 34, 26, 18, 10, 2, 59, 51, 43, 35, 27, 19, 11, 3, 60, 52,
    44, 36]

def lowerKey : List Nat :=
  [63, 55, 47, 39, 31, 23, 15, 7, 62, 54, 46, 38, 30, 22, 14, 6, 61, 53, 45, 37, 29, 21, 13, 5, 28, 20,
    12, 4]

/-- The bits of both halves that make a round key. -/
def roundKey : List Nat :=
  [14, 17, 11, 24, 1, 5, 3, 28, 15, 6, 21, 10, 23, 19, 12, 4, 26, 8, 16, 7, 27, 20, 13, 2,
    41, 52, 31, 37, 47, 55, 30, 40, 51, 45, 33, 48, 44, 49, 39, 56, 34, 53, 46, 42, 50, 36, 29, 32]

/-- How far the halves have been turned at each round. -/
def turns : List Nat :=
  [1, 2, 4, 6, 8, 10, 12, 14, 15, 17, 19, 21, 23, 25, 27, 28]

/-- Substitutes for six bits: each table has four rows of sixteen digits. -/
def tables : List Nat :=
  [0xe4d12fb83a6c59070f74e2d1a6cb953841e8d62bfc973a50fc8249175b3ea06d,
    0xf18e6b34972dc05a3d47f28ec01a69b50e7ba4d158c6932fd8a13f42b67c05e9,
    0xa09e63f51dc7b428d709346a285ecbf1d6498f30b12c5ae71ad069874fe3b52c,
    0x7de3069a1285bc4fd8b56f03472c1ae9a690cb7df13e52843f06a1d8945bc72e,
    0x2c417ab6853fd0e9eb2c47d150fa3986421bad78f9c5630eb8c71e2d6f09a453,
    0xc1af92680d34e75baf427c9561de0b389ef528c3704a1db6432c95fabe17608d,
    0x4b2ef08d3c975a61d0b7491ae35c2f8614bdc37eaf6805926bd814a7950fe23c,
    0xd2846fb1a93e50c71fd8a374c56b0e927b419ce206adf35821e74a8dfc90356b]

/-! ### Rounds -/

/-- The substitute of six bits: the outer two name the row, the others the place in it. -/
def substitute (table bits : Nat) : Nat :=
  let place := 16 * (bits / 32 * 2 + bits % 2) + bits / 2 % 16
  table / Nat.pow 16 (63 - place) % 16

/-- What a round adds to one half of a block, from the other half. -/
def mix (half key : Nat) : Nat :=
  let wide := pick 32 widened half ^^^ key
  let groups := (List.range 8).map fun i => wide / Nat.pow 64 (7 - i) % 64
  pick 32 spread ((tables.zipWith substitute groups).foldl (fun n digit => n * 16 + digit) 0)

/-- A half of 28 bits, turned to the left. -/
def turn (half places : Nat) : Nat :=
  half * Nat.pow 2 places % Nat.pow 2 28 + half / Nat.pow 2 (28 - places)

/-- The keys of the rounds, in the order of encryption. -/
def roundKeys (key : Nat) : List Nat :=
  let upper := pick 64 upperKey key
  let lower := pick 64 lowerKey key
  turns.map fun places => pick 56 roundKey (turn upper places * Nat.pow 2 28 + turn lower places)

/-- A block through all rounds, with round keys in the order of the direction. -/
def crypt (keys : List Nat) (block : Nat) : Nat :=
  let mixed := pick 64 initial block
  let (left, right) := keys.foldl (fun (left, right) key => (right, left ^^^ mix right key))
    (mixed / Nat.pow 2 32, mixed % Nat.pow 2 32)
  pick 64 final (right * Nat.pow 2 32 + left)

/-- The round keys of the three parts of a key. The last part of a shorter key is its first one. -/
def partKeys (key : List UInt8) : List (List Nat) :=
  match (Octets.blocks 8 key).map fun part => roundKeys (Octets.toNat part) with
  | [first, second] => [first, second, first]
  | parts => parts

/-- Undoes the three passes of a block: the last part decrypts, the second one encrypts, and the first
one decrypts. -/
def decryptBlock (keys : List (List Nat)) (block : List UInt8) : List UInt8 :=
  match keys with
  | [first, second, third] =>
    Octets.ofNat 8 (crypt first.reverse (crypt second (crypt third.reverse (Octets.toNat block))))
  | _ => block

end SoapRelay.TripleDes
