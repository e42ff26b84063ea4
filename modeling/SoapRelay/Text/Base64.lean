/-!
# Base64 with the standard alphabet

Padding is required and the unused low bits of the last symbol must be zero, so every byte string
has exactly one encoding. `decode` works on the bytes of the text, because an error names a byte
and its offset.

A text is read in groups of four symbols. All groups but the last must be complete; the last one
holds up to four bytes and is the only place where padding may stand.
-/

namespace SoapRelay.Base64

/-- Why a text is not Base64. Offsets count bytes of the text. -/
inductive DecodeError where
  | invalidSymbol (byte : UInt8) (offset : Nat)
  | invalidLength (length : Nat)
  | invalidPadding
  | invalidLastSymbol (byte : UInt8) (offset : Nat)
  deriving DecidableEq, Repr

def DecodeError.message : DecodeError → String
  | .invalidSymbol byte offset => "Invalid symbol " ++ toString byte.toNat ++ ", offset " ++ toString offset ++ "."
  | .invalidLength length => "Invalid input length: " ++ toString length
  | .invalidPadding => "Invalid padding"
  | .invalidLastSymbol byte offset =>
    "Invalid last symbol " ++ toString byte.toNat ++ ", offset " ++ toString offset ++ "."

def symbol (v : Nat) : UInt8 :=
  if v < 26 then UInt8.ofNat (65 + v)
  else if v < 52 then UInt8.ofNat (97 + (v - 26))
  else if v < 62 then UInt8.ofNat (48 + (v - 52))
  else if v = 62 then 43
  else 47

def value? (b : UInt8) : Option Nat :=
  let n := b.toNat
  if 65 ≤ n ∧ n ≤ 90 then some (n - 65)
  else if 97 ≤ n ∧ n ≤ 122 then some (n - 97 + 26)
  else if 48 ≤ n ∧ n ≤ 57 then some (n - 48 + 52)
  else if n = 43 then some 62
  else if n = 47 then some 63
  else none

/-- The padding byte `=`. -/
def pad : UInt8 := 61

def encode : List UInt8 → List UInt8
  | a :: b :: c :: rest =>
    symbol (a.toNat / 4) :: symbol (a.toNat % 4 * 16 + b.toNat / 16)
      :: symbol (b.toNat % 16 * 4 + c.toNat / 64) :: symbol (c.toNat % 64) :: encode rest
  | [a, b] => [symbol (a.toNat / 4), symbol (a.toNat % 4 * 16 + b.toNat / 16), symbol (b.toNat % 16 * 4), pad]
  | [a] => [symbol (a.toNat / 4), symbol (a.toNat % 4 * 16), pad, pad]
  | [] => []

def valueAt (b : UInt8) (offset : Nat) : Except DecodeError Nat :=
  match value? b with
  | some v => .ok v
  | none => .error (.invalidSymbol b offset)

/-- The symbols of the last group and the number of padding bytes after them. Padding may not start
before the third place, and nothing but padding may follow it. -/
def lastSymbols (start : Nat) : List UInt8 → Nat → List Nat → Option Nat → Except DecodeError (List Nat × Nat)
  | [], index, values, firstPad => .ok (values.reverse, match firstPad with | some p => index - p | none => 0)
  | b :: rest, index, values, firstPad =>
    if b = pad then
      if index < 2 then .error (.invalidSymbol b (start + index))
      else lastSymbols start rest (index + 1) values (firstPad.or (some index))
    else
      match firstPad with
      | some p => .error (.invalidSymbol pad (start + p))
      | none =>
        match value? b with
        | some v => lastSymbols start rest (index + 1) (v :: values) none
        | none => .error (.invalidSymbol b (start + index))

/-- The bytes of the last group. Its symbols and padding must fill the group, and the low bits that
no byte takes must be zero. -/
def lastBytes (start : Nat) (values : List Nat) (padding : Nat) : Except DecodeError (List UInt8) :=
  if values.length < 2 then .error (.invalidLength (start + values.length))
  else if (values.length + padding) % 4 ≠ 0 then .error .invalidPadding
  else
    match values with
    | [a, b] =>
      if b % 16 = 0 then .ok [UInt8.ofNat (a * 4 + b / 16)]
      else .error (.invalidLastSymbol (symbol b) (start + 1))
    | [a, b, c] =>
      if c % 4 = 0 then .ok [UInt8.ofNat (a * 4 + b / 16), UInt8.ofNat (b % 16 * 16 + c / 4)]
      else .error (.invalidLastSymbol (symbol c) (start + 2))
    | [a, b, c, d] =>
      .ok [UInt8.ofNat (a * 4 + b / 16), UInt8.ofNat (b % 16 * 16 + c / 4), UInt8.ofNat (c % 4 * 64 + d)]
    | _ => .error .invalidPadding

/-- Decodes the last group, which starts at offset `start`. -/
def decodeLast (start : Nat) (group : List UInt8) : Except DecodeError (List UInt8) :=
  match lastSymbols start group 0 [] none with
  | .error e => .error e
  | .ok (values, padding) => lastBytes start values padding

/-- Decodes the groups from offset `start` on. A group of four is complete only if another byte
follows it; otherwise it is the last one. -/
def decodeFrom (start : Nat) : List UInt8 → Except DecodeError (List UInt8)
  | a :: b :: c :: d :: e :: rest => do
    let va ← valueAt a start
    let vb ← valueAt b (start + 1)
    let vc ← valueAt c (start + 2)
    let vd ← valueAt d (start + 3)
    let tail ← decodeFrom (start + 4) (e :: rest)
    return UInt8.ofNat (va * 4 + vb / 16) :: UInt8.ofNat (vb % 16 * 16 + vc / 4)
      :: UInt8.ofNat (vc % 4 * 64 + vd) :: tail
  | group => decodeLast start group
termination_by bs => bs.length

/-- Decodes a text. One foreign byte after complete groups is reported before anything else. -/
def decode (bs : List UInt8) : Except DecodeError (List UInt8) :=
  match bs.getLast? with
  | some b =>
    if bs.length % 4 = 1 ∧ b ≠ pad ∧ (value? b).isNone then .error (.invalidSymbol b (bs.length - 1))
    else decodeFrom 0 bs
  | none => .ok []

def text (bs : List UInt8) : String :=
  String.ofList ((encode bs).map fun b => Char.ofNat b.toNat)

end SoapRelay.Base64
