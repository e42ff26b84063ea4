import SoapRelay.Text.Base64
import SoapRelay.Text.Utf8

/-!
# Text blocks of keys and certificates

A block starts at a line `-----BEGIN label-----`, ends at the line `-----END label-----` and holds
Base64 text between them. What stands before and after blocks is ignored, and so is what stands at
the end of a line and is not visible ASCII. `next` takes the first block off a list of lines.
-/

namespace SoapRelay.Pem

abbrev Line := List UInt8

/-- Splits at line feeds; text that ends with one has no further line. -/
def lines : List UInt8 → List Line
  | [] => []
  | b :: rest =>
    if b = 10 then [] :: lines rest
    else
      match lines rest with
      | [] => [[b]]
      | l :: ls => (b :: l) :: ls

/-- The line up to its last visible character. -/
def visible (l : Line) : Line :=
  (l.reverse.dropWhile fun b => b ≤ 32 || b ≥ 128).reverse

def dashes : Line := Utf8.bytes "-----"

def opening : Line := Utf8.bytes "-----BEGIN "

def closing : Line := Utf8.bytes "-----END "

/-- Groups of four symbols; padding closes the last one. -/
def quads : List UInt8 → Option (List UInt8)
  | [] => some []
  | a :: b :: c :: d :: rest => do
    let va ← Base64.value? a
    let vb ← Base64.value? b
    let first := UInt8.ofNat (va * 4 + vb / 16)
    if c = Base64.pad then
      if d = Base64.pad ∧ rest = [] then some [first] else none
    else
      let vc ← Base64.value? c
      let second := UInt8.ofNat (vb % 16 * 16 + vc / 4)
      if d = Base64.pad then
        if rest = [] then some [first, second] else none
      else
        let vd ← Base64.value? d
        let tail ← quads rest
        some (first :: second :: UInt8.ofNat (vc % 4 * 64 + vd) :: tail)
  | _ => none

/-- The bytes of body lines. Blanks within lines do not count. -/
def decode? (body : List Line) : Option (List UInt8) :=
  quads (body.flatten.filter fun c => !(c = 32 || c = 9 || c = 13))

structure Block where
  label : Line
  /-- Lines that a blank line divides from the rest. -/
  headers : List Line
  contents : List UInt8
  deriving DecidableEq

inductive Found where
  | nothing
  /-- A block that has no proper end. -/
  | broken
  | block (b : Block) (rest : List Line)

/-- The label of a line that opens a block. -/
def label? (l : Line) : Option Line :=
  let l := visible l
  if opening.isPrefixOf l && dashes.isSuffixOf l then
    some ((l.drop opening.length).take (l.length - opening.length - dashes.length))
  else none

/-- Reads on to the end of a block. After headers a body line has at most 64 characters and only
the last one has fewer. -/
def readBody (label : Line) : List Line → (body : List Line) → (headers : Option (List Line)) →
    (short : Bool) → Found
  | [], _, _, _ => .broken
  | line :: rest, body, headers, short =>
    let line := visible line
    if line = [] then
      match headers with
      | some _ => .broken
      | none => readBody label rest [] (some body.reverse) short
    else if closing.isPrefixOf line then
      match decode? body.reverse with
      | some contents =>
        if line = closing ++ label ++ dashes then .block ⟨label, headers.getD [], contents⟩ rest
        else .broken
      | none => .broken
    else if short then .broken
    else
      match headers with
      | none => readBody label rest (line :: body) none false
      | some _ =>
        if line.length > 64 then .broken
        else readBody label rest (line :: body) headers (line.length < 64)

def next : List Line → Found
  | [] => .nothing
  | line :: rest =>
    match label? line with
    | some label => readBody label rest [] none false
    | none => next rest

theorem readBody_rest {label : Line} {ls body : List Line} {headers : Option (List Line)}
    {short : Bool} {b : Block} {rest : List Line}
    (h : readBody label ls body headers short = .block b rest) : rest.length < ls.length := by
  fun_induction readBody label ls body headers short <;> simp_all <;> omega

theorem next_rest {ls : List Line} {b : Block} {rest : List Line} (h : next ls = .block b rest) :
    rest.length < ls.length := by
  fun_induction next ls with
  | case1 => simp at h
  | case2 line tail label _ => exact Nat.lt_succ_of_lt (readBody_rest h)
  | case3 line tail _ ih => exact Nat.lt_succ_of_lt (ih h)

/-- The first block whose label is accepted, passing over others. -/
def nextLabelled (accepted : List Line) (ls : List Line) : Found :=
  match _h : next ls with
  | .nothing => .nothing
  | .broken => .broken
  | .block b rest => if b.label ∈ accepted then .block b rest else nextLabelled accepted rest
termination_by ls.length
decreasing_by exact next_rest _h

theorem nextLabelled_rest {accepted ls : List Line} {b : Block} {rest : List Line}
    (h : nextLabelled accepted ls = .block b rest) : rest.length < ls.length := by
  fun_induction nextLabelled accepted ls with
  | case1 | case2 => simp at h
  | case3 ls b' rest' hn _ =>
    simp only [Found.block.injEq] at h
    exact h.2 ▸ next_rest hn
  | case4 ls b' rest' hn _ ih => exact Nat.lt_trans (ih h) (next_rest hn)

/-- The bytes of a block without headers. -/
def Block.bytes? (b : Block) : Option (List UInt8) :=
  if b.headers = [] then some b.contents else none

end SoapRelay.Pem
