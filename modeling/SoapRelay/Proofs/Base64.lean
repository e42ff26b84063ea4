import SoapRelay.Proofs.Except
import SoapRelay.Text.Base64

/-!
# Base64 is canonical

`decode` accepts exactly what `encode` writes (`decode_eq_ok_iff`), so a byte string has one written
form and a written form has one meaning.
-/

namespace SoapRelay.Base64

/-! ### Symbols -/

theorem value?_symbol {v : Nat} (h : v < 64) : value? (symbol v) = some v := by
  have all : ∀ v < 64, value? (symbol v) = some v := by decide
  exact all v h

theorem symbol_ne_pad {v : Nat} (h : v < 64) : symbol v ≠ pad := by
  have all : ∀ v < 64, symbol v ≠ pad := by decide
  exact all v h

theorem symbol_of_value? {b : UInt8} {v : Nat} (h : value? b = some v) : v < 64 ∧ symbol v = b := by
  have all : ∀ n < 256, ∀ v ∈ value? (UInt8.ofNat n), v < 64 ∧ symbol v = UInt8.ofNat n := by
    decide +kernel
  have found := all b.toNat b.toNat_lt v
  rw [UInt8.ofNat_toNat] at found
  exact found h

theorem valueAt_symbol {v offset : Nat} (h : v < 64) : valueAt (symbol v) offset = .ok v := by
  rw [valueAt, value?_symbol h]

theorem symbol_of_valueAt {b : UInt8} {offset v : Nat} (h : valueAt b offset = .ok v) :
    v < 64 ∧ symbol v = b := by
  unfold valueAt at h
  split at h
  · rename_i found
    obtain rfl := Except.ok.inj h
    exact symbol_of_value? found
  · cases h

/-! ### Groups -/

/-- The three bytes of four six-bit values. -/
theorem encode_group {a b c d : Nat} {rest : List UInt8} (ha : a < 64) (hb : b < 64) (hc : c < 64)
    (hd : d < 64) :
    encode (UInt8.ofNat (a * 4 + b / 16) :: UInt8.ofNat (b % 16 * 16 + c / 4)
        :: UInt8.ofNat (c % 4 * 64 + d) :: rest) =
      symbol a :: symbol b :: symbol c :: symbol d :: encode rest := by
  have first : (UInt8.ofNat (a * 4 + b / 16)).toNat = a * 4 + b / 16 := by
    rw [UInt8.toNat_ofNat']
    omega
  have second : (UInt8.ofNat (b % 16 * 16 + c / 4)).toNat = b % 16 * 16 + c / 4 := by
    rw [UInt8.toNat_ofNat']
    omega
  have third : (UInt8.ofNat (c % 4 * 64 + d)).toNat = c % 4 * 64 + d := by
    rw [UInt8.toNat_ofNat']
    omega
  rw [encode, first, second, third, show (a * 4 + b / 16) / 4 = a by omega,
    show (a * 4 + b / 16) % 4 * 16 + (b % 16 * 16 + c / 4) / 16 = b by omega,
    show (b % 16 * 16 + c / 4) % 16 * 4 + (c % 4 * 64 + d) / 64 = c by omega,
    show (c % 4 * 64 + d) % 64 = d by omega]

theorem encode_pair {a b c : Nat} (ha : a < 64) (hb : b < 64) (hc : c < 64) (spare : c % 4 = 0) :
    encode [UInt8.ofNat (a * 4 + b / 16), UInt8.ofNat (b % 16 * 16 + c / 4)] =
      [symbol a, symbol b, symbol c, pad] := by
  rw [encode, UInt8.toNat_ofNat', UInt8.toNat_ofNat', show (a * 4 + b / 16) % 2 ^ 8 / 4 = a by omega,
    show (a * 4 + b / 16) % 2 ^ 8 % 4 * 16 + (b % 16 * 16 + c / 4) % 2 ^ 8 / 16 = b by omega,
    show (b % 16 * 16 + c / 4) % 2 ^ 8 % 16 * 4 = c by omega]

theorem encode_single {a b : Nat} (ha : a < 64) (hb : b < 64) (spare : b % 16 = 0) :
    encode [UInt8.ofNat (a * 4 + b / 16)] = [symbol a, symbol b, pad, pad] := by
  rw [encode, UInt8.toNat_ofNat', show (a * 4 + b / 16) % 2 ^ 8 / 4 = a by omega,
    show (a * 4 + b / 16) % 2 ^ 8 % 4 * 16 = b by omega]

/-- Nothing but padding follows padding. -/
theorem lastSymbols_some {start index place padding : Nat} {group : List UInt8} {values read : List Nat}
    (h : lastSymbols start group index values (some place) = .ok (read, padding)) :
    read = values.reverse ∧ group = List.replicate group.length pad ∧
      padding = index + group.length - place := by
  induction group generalizing index with
  | nil =>
    obtain ⟨rfl, rfl⟩ := Prod.mk.inj (Except.ok.inj h)
    exact ⟨rfl, rfl, rfl⟩
  | cons b rest ih =>
    unfold lastSymbols at h
    split at h
    · rename_i isPad
      split at h
      · cases h
      · obtain ⟨same, pads, count⟩ := ih h
        refine ⟨same, ?_, ?_⟩
        · rw [List.length_cons, List.replicate_succ, ← pads, isPad]
        · rw [List.length_cons]
          omega
    · cases h

/-- A last group is symbols and then padding. -/
theorem lastSymbols_none {start index padding : Nat} {group : List UInt8} {values read : List Nat}
    (h : lastSymbols start group index values none = .ok (read, padding)) :
    ∃ more : List Nat, read = values.reverse ++ more ∧ (∀ v ∈ more, v < 64) ∧
      group = more.map symbol ++ List.replicate padding pad := by
  induction group generalizing index values with
  | nil =>
    obtain ⟨rfl, rfl⟩ := Prod.mk.inj (Except.ok.inj h)
    exact ⟨[], by simp, by simp, rfl⟩
  | cons b rest ih =>
    unfold lastSymbols at h
    split at h
    · rename_i isPad
      split at h
      · cases h
      · obtain ⟨same, pads, count⟩ := lastSymbols_some h
        refine ⟨[], by simp [same], by simp, ?_⟩
        rw [show padding = rest.length + 1 by omega, List.replicate_succ, ← pads, isPad]
        rfl
    · dsimp only at h
      split at h
      · rename_i v found
        obtain ⟨small, rfl⟩ := symbol_of_value? found
        obtain ⟨more, same, bounded, rfl⟩ := ih h
        refine ⟨v :: more, by simp [same], ?_, rfl⟩
        intro w member
        rcases List.mem_cons.mp member with rfl | later
        · exact small
        · exact bounded w later
      · cases h

theorem lastBytes_ok {start padding : Nat} {values : List Nat} {d : List UInt8}
    (bounded : ∀ v ∈ values, v < 64) (short : values.length + padding ≤ 4)
    (h : lastBytes start values padding = .ok d) :
    encode d = values.map symbol ++ List.replicate padding pad := by
  unfold lastBytes at h
  split at h
  · cases h
  · split at h
    · cases h
    · rename_i full whole
      have four : values.length + padding = 4 := by omega
      split at h
      · rename_i a b
        obtain rfl : padding = 2 := Nat.add_left_cancel four
        split at h
        · rename_i spare
          obtain rfl := Except.ok.inj h
          rw [encode_single (bounded a (by simp)) (bounded b (by simp)) spare]
          rfl
        · cases h
      · rename_i a b c
        obtain rfl : padding = 1 := Nat.add_left_cancel four
        split at h
        · rename_i spare
          obtain rfl := Except.ok.inj h
          rw [encode_pair (bounded a (by simp)) (bounded b (by simp)) (bounded c (by simp)) spare]
          rfl
        · cases h
      · rename_i a b c e
        obtain rfl : padding = 0 := by simpa using four
        obtain rfl := Except.ok.inj h
        rw [encode_group (bounded a (by simp)) (bounded b (by simp)) (bounded c (by simp))
          (bounded e (by simp))]
        rfl
      · cases h

theorem encode_of_decodeLast {start : Nat} {group d : List UInt8} (short : group.length ≤ 4)
    (h : decodeLast start group = .ok d) : encode d = group := by
  unfold decodeLast at h
  split at h
  · cases h
  · rename_i values padding read
    obtain ⟨more, same, bounded, rfl⟩ := lastSymbols_none read
    obtain rfl : values = more := by simpa using same
    exact lastBytes_ok bounded (by simpa using short) h

/-! ### Whole texts -/

theorem encode_of_decodeFrom {start : Nat} {bs d : List UInt8} (h : decodeFrom start bs = .ok d) :
    encode d = bs := by
  fun_induction decodeFrom start bs generalizing d with
  | case1 start a b c e f rest ih =>
    obtain ⟨va, ha, h⟩ := bind_ok h
    obtain ⟨vb, hb, h⟩ := bind_ok h
    obtain ⟨vc, hc, h⟩ := bind_ok h
    obtain ⟨ve, he, h⟩ := bind_ok h
    obtain ⟨tail, read, h⟩ := bind_ok h
    obtain rfl := pure_ok h
    obtain ⟨smallA, rfl⟩ := symbol_of_valueAt ha
    obtain ⟨smallB, rfl⟩ := symbol_of_valueAt hb
    obtain ⟨smallC, rfl⟩ := symbol_of_valueAt hc
    obtain ⟨smallE, rfl⟩ := symbol_of_valueAt he
    rw [encode_group smallA smallB smallC smallE, ih read]
  | case2 start group long =>
    apply encode_of_decodeLast _ h
    match group, long with
    | [], _ | [_], _ | [_, _], _ | [_, _, _], _ | [_, _, _, _], _ => simp
    | a :: b :: c :: e :: f :: rest, long => exact (long a b c e f rest rfl).elim

theorem exists_group (a b c : UInt8) :
    ∃ v w x y, v < 64 ∧ w < 64 ∧ x < 64 ∧ y < 64 ∧ a = UInt8.ofNat (v * 4 + w / 16) ∧
      b = UInt8.ofNat (w % 16 * 16 + x / 4) ∧ c = UInt8.ofNat (x % 4 * 64 + y) := by
  have la := a.toNat_lt
  have lb := b.toNat_lt
  have lc := c.toNat_lt
  refine ⟨a.toNat / 4, a.toNat % 4 * 16 + b.toNat / 16, b.toNat % 16 * 4 + c.toNat / 64, c.toNat % 64,
    by omega, by omega, by omega, by omega, ?_, ?_, ?_⟩
  · rw [show a.toNat / 4 * 4 + (a.toNat % 4 * 16 + b.toNat / 16) / 16 = a.toNat by omega,
      UInt8.ofNat_toNat]
  · rw [show (a.toNat % 4 * 16 + b.toNat / 16) % 16 * 16 + (b.toNat % 16 * 4 + c.toNat / 64) / 4 =
      b.toNat by omega, UInt8.ofNat_toNat]
  · rw [show (b.toNat % 16 * 4 + c.toNat / 64) % 4 * 64 + c.toNat % 64 = c.toNat by omega,
      UInt8.ofNat_toNat]

theorem exists_pair (a b : UInt8) :
    ∃ v w x, v < 64 ∧ w < 64 ∧ x < 64 ∧ x % 4 = 0 ∧ a = UInt8.ofNat (v * 4 + w / 16) ∧
      b = UInt8.ofNat (w % 16 * 16 + x / 4) := by
  obtain ⟨v, w, x, y, hv, hw, hx, hy, rfl, rfl, zero⟩ := exists_group a b 0
  have low : x % 4 * 64 + y = 0 := by
    have := congrArg UInt8.toNat zero
    rw [UInt8.toNat_ofNat', show (0 : UInt8).toNat = 0 from rfl] at this
    omega
  exact ⟨v, w, x, hv, hw, hx, by omega, rfl, rfl⟩

theorem exists_single (a : UInt8) :
    ∃ v w, v < 64 ∧ w < 64 ∧ w % 16 = 0 ∧ a = UInt8.ofNat (v * 4 + w / 16) := by
  obtain ⟨v, w, x, hv, hw, hx, spare, rfl, zero⟩ := exists_pair a 0
  have low : w % 16 * 16 + x / 4 = 0 := by
    have := congrArg UInt8.toNat zero
    rw [UInt8.toNat_ofNat', show (0 : UInt8).toNat = 0 from rfl] at this
    omega
  exact ⟨v, w, hv, hw, by omega, rfl⟩

theorem encode_ne_nil {d : List UInt8} (h : d ≠ []) : encode d ≠ [] := by
  fun_cases encode d with
  | case4 => exact absurd rfl h
  | _ => simp

theorem decodeFrom_encode {start : Nat} {d : List UInt8} (h : d ≠ []) :
    decodeFrom start (encode d) = .ok d := by
  induction d using encode.induct generalizing start with
  | case1 a b c rest ih =>
    obtain ⟨v, w, x, y, hv, hw, hx, hy, rfl, rfl, rfl⟩ := exists_group a b c
    rw [encode_group hv hw hx hy]
    cases rest with
    | nil =>
      rw [encode, decodeFrom, decodeLast]
      · simp [lastSymbols, value?_symbol, symbol_ne_pad, lastBytes, hv, hw, hx, hy]
      · simp
    | cons e rest =>
      obtain ⟨s, more, split⟩ := List.exists_cons_of_ne_nil (encode_ne_nil (List.cons_ne_nil e rest))
      rw [split, decodeFrom, ← split, ih (List.cons_ne_nil e rest), valueAt_symbol hv,
        valueAt_symbol hw, valueAt_symbol hx, valueAt_symbol hy]
      rfl
  | case2 a b =>
    obtain ⟨v, w, x, hv, hw, hx, spare, rfl, rfl⟩ := exists_pair a b
    rw [encode_pair hv hw hx spare, decodeFrom, decodeLast]
    · simp [lastSymbols, value?_symbol, symbol_ne_pad, lastBytes, hv, hw, hx, spare]
    · simp
  | case3 a =>
    obtain ⟨v, w, hv, hw, spare, rfl⟩ := exists_single a
    rw [encode_single hv hw spare, decodeFrom, decodeLast]
    · simp [lastSymbols, value?_symbol, symbol_ne_pad, lastBytes, hv, hw, spare]
    · simp
  | case4 => exact absurd rfl h

theorem length_encode_mod (d : List UInt8) : (encode d).length % 4 = 0 := by
  induction d using encode.induct with
  | case1 a b c rest ih =>
    simp only [encode, List.length_cons]
    omega
  | _ => simp [encode]

theorem decode_encode (d : List UInt8) : decode (encode d) = .ok d := by
  unfold decode
  split
  · rename_i b last
    rw [if_neg (by rw [length_encode_mod]; simp), decodeFrom_encode]
    rintro rfl
    simp [encode] at last
  · rename_i empty
    rw [List.getLast?_eq_none_iff] at empty
    by_cases h : d = []
    · rw [h]
    · exact absurd empty (encode_ne_nil h)

/-- Reading accepts what writing produces and nothing else. -/
theorem decode_eq_ok_iff {bs d : List UInt8} : decode bs = .ok d ↔ encode d = bs := by
  constructor
  · intro h
    unfold decode at h
    split at h
    · split at h
      · cases h
      · exact encode_of_decodeFrom h
    · rename_i empty
      obtain rfl := Except.ok.inj h
      exact (List.getLast?_eq_none_iff.mp empty).symm
  · rintro rfl
    exact decode_encode d

/-! ### The bytes of a written form -/

theorem toNat_symbol_lt {v : Nat} (h : v < 64) : (symbol v).toNat < 126 := by
  have all : ∀ v < 64, (symbol v).toNat < 126 := by decide
  exact all v h

/-- A written form is plain text without the token separator. -/
theorem toNat_lt_of_mem_encode {d : List UInt8} {b : UInt8} (h : b ∈ encode d) : b.toNat < 126 := by
  have padding : pad.toNat < 126 := by decide
  induction d using encode.induct with
  | case1 a b c rest ih =>
    obtain ⟨v, w, x, y, hv, hw, hx, hy, rfl, rfl, rfl⟩ := exists_group a b c
    rw [encode_group hv hw hx hy] at h
    simp only [List.mem_cons] at h
    rcases h with rfl | rfl | rfl | rfl | later
    · exact toNat_symbol_lt hv
    · exact toNat_symbol_lt hw
    · exact toNat_symbol_lt hx
    · exact toNat_symbol_lt hy
    · exact ih later
  | case2 a b =>
    obtain ⟨v, w, x, hv, hw, hx, spare, rfl, rfl⟩ := exists_pair a b
    rw [encode_pair hv hw hx spare] at h
    simp only [List.mem_cons, List.not_mem_nil, or_false] at h
    rcases h with rfl | rfl | rfl | rfl
    · exact toNat_symbol_lt hv
    · exact toNat_symbol_lt hw
    · exact toNat_symbol_lt hx
    · exact padding
  | case3 a =>
    obtain ⟨v, w, hv, hw, spare, rfl⟩ := exists_single a
    rw [encode_single hv hw spare] at h
    simp only [List.mem_cons, List.not_mem_nil, or_false] at h
    rcases h with rfl | rfl | rfl | rfl
    · exact toNat_symbol_lt hv
    · exact toNat_symbol_lt hw
    · exact padding
    · exact padding
  | case4 => simp [encode] at h

end SoapRelay.Base64
