import SoapRelay.Crypto.Digest

/-!
# AES, decrypting

The block cipher with keys of 16, 24 or 32 bytes, from ciphertext to plaintext only. A block is a list
of sixteen bytes, column after column. Bytes are polynomials over two elements, modulo
`x ^ 8 + x ^ 4 + x ^ 3 + x + 1`.
-/

namespace SoapRelay.Aes

/-! ### Bytes as field elements -/

/-- A byte times `x`. -/
def double (b : UInt8) : UInt8 :=
  if b &&& 0x80 = 0 then b <<< 1 else (b <<< 1) ^^^ 0x1b

/-- The product with the lowest bits of the second factor. -/
def mulBits (a b : UInt8) : (bits : Nat) → UInt8
  | 0 => 0
  | bits + 1 => (if b &&& 1 = 1 then a else 0) ^^^ mulBits (double a) (b >>> 1) bits

def mul (a b : UInt8) : UInt8 := mulBits a b 8

def power (a : UInt8) : Nat → UInt8
  | 0 => 1
  | n + 1 => mul a (power a n)

def rotl (b : UInt8) (n : UInt8) : UInt8 := (b <<< n) ||| (b >>> (8 - n))

/-- A byte's inverse, which zero lacks and is given as zero, under an affine map of its bits. -/
def substitute (b : UInt8) : UInt8 :=
  let i := power b 254
  i ^^^ rotl i 1 ^^^ rotl i 2 ^^^ rotl i 3 ^^^ rotl i 4 ^^^ 0x63

def allBytes : List UInt8 :=
  (List.range 256).map UInt8.ofNat

def table : Array UInt8 := (allBytes.map substitute).toArray

def inverseTable : Array UInt8 :=
  allBytes.foldl (fun t b => t.setIfInBounds (table.getD b.toNat 0).toNat b) (Array.replicate 256 0)

/-! ### Round keys -/

/-- The next word of a key schedule, from the word before it and the one a key length before. -/
def nextWord (keyWords index : Nat) (last first : List UInt8) : List UInt8 :=
  let sub := List.map fun b : UInt8 => table.getD b.toNat 0
  let mixed :=
    if index % keyWords = 0 then
      xorBytes (sub (last.drop 1 ++ last.take 1)) [power 2 (index / keyWords - 1), 0, 0, 0]
    else if 6 < keyWords ∧ index % keyWords = 4 then sub last
    else last
  xorBytes first mixed

/-- A key schedule of `count` words, last word first. -/
def schedule (key : List UInt8) (count : Nat) : List (List UInt8) :=
  let words := Octets.blocks 4 key
  let n := words.length
  (List.range (count - n)).foldl
    (fun ws i => nextWord n (n + i) (ws.headD []) ((ws.drop (n - 1)).headD []) :: ws) words.reverse

/-- The keys of all rounds, that of the last round first. -/
def roundKeys (key : List UInt8) : List (List UInt8) :=
  let rounds := key.length / 4 + 6
  (Octets.blocks 16 (schedule key (4 * (rounds + 1))).reverse.flatten).reverse

/-! ### Blocks -/

/-- Row `r` of a block goes `r` columns to the right. -/
def unshiftRows (block : List UInt8) : List UInt8 :=
  (List.range 16).map fun i => block.getD ((i + 16 - 4 * (i % 4)) % 16) 0

def unsubstitute (block : List UInt8) : List UInt8 :=
  block.map fun b => inverseTable.getD b.toNat 0

def unmixColumn : List UInt8 → List UInt8
  | [a, b, c, d] =>
    let row (w x y z : UInt8) := mul w 14 ^^^ mul x 11 ^^^ mul y 13 ^^^ mul z 9
    [row a b c d, row b c d a, row c d a b, row d a b c]
  | column => column

def unmixColumns (block : List UInt8) : List UInt8 :=
  (Octets.blocks 4 block).flatMap unmixColumn

/-- Undoes the rounds of the given keys. Columns are not mixed in the last round, and the first key is
added before it. -/
def unround : (keys : List (List UInt8)) → List UInt8 → List UInt8
  | [], block => block
  | [key], block => xorBytes key (unsubstitute (unshiftRows block))
  | key :: keys, block =>
    unround keys (unmixColumns (xorBytes key (unsubstitute (unshiftRows block))))

def decryptBlock (keys : List (List UInt8)) (block : List UInt8) : List UInt8 :=
  match keys with
  | [] => block
  | last :: keys => unround keys (xorBytes last block)

end SoapRelay.Aes
