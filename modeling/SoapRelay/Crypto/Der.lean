import SoapRelay.Crypto.Octets

/-!
# Tagged elements

The binary notation of keys, certificates and signatures: elements of a tag, a length and a body,
and the bodies of some of them are elements again. `read?` takes an element off the front of a byte
string; `write` is its one canonical form.
-/

namespace SoapRelay.Der

structure Element where
  tag : UInt8
  body : List UInt8
  deriving DecidableEq, Repr

namespace Tag

def integer : UInt8 := 0x02
def bitString : UInt8 := 0x03
def octetString : UInt8 := 0x04
def null : UInt8 := 0x05
def objectId : UInt8 := 0x06
def sequence : UInt8 := 0x30
def set : UInt8 := 0x31

/-- The tag of a field that a number marks and that holds other elements. -/
def marked (n : UInt8) : UInt8 := 0xA0 + n

/-- The tag of a field that a number marks and that holds bytes. -/
def markedBytes (n : UInt8) : UInt8 := 0x80 + n

end Tag

/-- A length, in one byte below 128 or else in as many bytes as its first one tells. -/
def length? : List UInt8 → Option (Nat × List UInt8)
  | [] => none
  | b :: rest =>
    if b.toNat < 128 then some (b.toNat, rest)
    else
      let count := b.toNat - 128
      if count = 0 ∨ rest.length < count then none
      else some (Octets.toNat (rest.take count), rest.drop count)

def read? : List UInt8 → Option (Element × List UInt8)
  | [] => none
  | tag :: rest =>
    if tag &&& 0x1F = 0x1F then none
    else
      match length? rest with
      | none => none
      | some (n, rest) => if rest.length < n then none else some (⟨tag, rest.take n⟩, rest.drop n)

theorem length_le {bytes rest : List UInt8} {n : Nat} (h : length? bytes = some (n, rest)) :
    rest.length ≤ bytes.length := by
  match bytes with
  | [] => simp [length?] at h
  | b :: tail =>
    simp only [length?] at h
    split at h
    · simp only [Option.some.injEq, Prod.mk.injEq] at h
      simp [← h.2]
    · split at h
      · simp at h
      · simp only [Option.some.injEq, Prod.mk.injEq] at h
        simp only [← h.2, List.length_drop, List.length_cons]
        omega

theorem read_length_lt {bytes rest : List UInt8} {e : Element} (h : read? bytes = some (e, rest)) :
    rest.length < bytes.length := by
  match bytes with
  | [] => simp [read?] at h
  | tag :: tail =>
    simp only [read?] at h
    split at h
    · simp at h
    · split at h
      · simp at h
      · rename_i n r hr
        have := length_le hr
        split at h
        · simp at h
        · simp only [Option.some.injEq, Prod.mk.injEq] at h
          simp only [← h.2, List.length_drop, List.length_cons]
          omega

def readAll? (bytes : List UInt8) : Option (List Element) :=
  if bytes = [] then some []
  else
    match _h : read? bytes with
    | none => none
    | some (e, rest) => (e :: ·) <$> readAll? rest
termination_by bytes.length
decreasing_by exact read_length_lt _h

namespace Element

/-- The elements in the body of an element with the given tag. -/
def children? (e : Element) (tag : UInt8) : Option (List Element) :=
  if e.tag = tag then readAll? e.body else none

def items? (e : Element) : Option (List Element) :=
  e.children? Tag.sequence

def natural? (e : Element) : Option Nat :=
  if e.tag = Tag.integer then
    match e.body with
    | [] => none
    | b :: _ => if b.toNat < 128 then some (Octets.toNat e.body) else none
  else none

def octets? (e : Element) : Option (List UInt8) :=
  if e.tag = Tag.octetString then some e.body else none

/-- The bytes of a bit string without unused bits. -/
def bits? (e : Element) : Option (List UInt8) :=
  if e.tag = Tag.bitString then
    match e.body with
    | 0 :: bytes => some bytes
    | _ => none
  else none

end Element

/-- The numbers of seven-bit groups, high bit set on all but the last of a number. -/
def groups : (acc : Nat) → List UInt8 → List Nat
  | _, [] => []
  | acc, b :: rest =>
    let n := acc * 128 + b.toNat % 128
    if b.toNat < 128 then n :: groups 0 rest else groups n rest

/-- An object identifier in dotted form. -/
def Element.objectId? (e : Element) : Option String :=
  if e.tag = Tag.objectId then
    match groups 0 e.body with
    | [] => none
    | first :: rest =>
      let top := min 2 (first / 40)
      some (".".intercalate ((top :: (first - 40 * top) :: rest).map toString))
  else none

def writeLength (n : Nat) : List UInt8 :=
  if n < 128 then [UInt8.ofNat n]
  else
    let size := Octets.size n
    UInt8.ofNat (128 + size) :: Octets.ofNat size n

def write (e : Element) : List UInt8 :=
  e.tag :: (writeLength e.body.length ++ e.body)

/-- A number in the fewest bytes whose first bit is zero. -/
def Element.ofNatural (n : Nat) : Element :=
  ⟨Tag.integer, Octets.ofNat (n.log2 / 8 + if n ≠ 0 ∧ n.log2 % 8 = 7 then 2 else 1) n⟩

def Element.ofItems (es : List Element) : Element :=
  ⟨Tag.sequence, es.flatMap write⟩

end SoapRelay.Der
