import Mathlib.Data.List.Basic
import SoapRelay.Envelope.CallId
import SoapRelay.Proofs.Base64

/-!
# Tokens and fields

A line is cut at its separators and nowhere else, and a field has one written form, which holds no
separator.
-/

namespace SoapRelay

/-! ### UTF-8 -/

namespace Utf8

theorem toByteArray_bytes (s : String) : (bytes s).toByteArray = s.toByteArray := by
  apply ByteArray.ext
  simp [bytes]

theorem bytes_inj {s t : String} : bytes s = bytes t ↔ s = t := by
  constructor
  · intro h
    apply String.toByteArray_inj.mp
    rw [← toByteArray_bytes, ← toByteArray_bytes, h]
  · rintro rfl
    rfl

theorem text?_eq_some_iff {bs : List UInt8} {s : String} : text? bs = some s ↔ bytes s = bs := by
  unfold text? String.fromUTF8?
  constructor
  · intro h
    split at h
    · obtain rfl := Option.some.inj h
      simp [bytes, String.fromUTF8]
    · cases h
  · rintro rfl
    have valid : (bytes s).toByteArray.IsValidUTF8 := by
      rw [toByteArray_bytes]
      exact s.isValidUTF8
    rw [dif_pos valid, Option.some.injEq]
    exact String.toByteArray_inj.mp (toByteArray_bytes s)

theorem bytes_ofList (cs : List Char) : bytes (String.ofList cs) = cs.flatMap String.utf8EncodeChar := by
  rw [bytes, String.toByteArray_ofList, List.utf8Encode, List.toList_data_toByteArray]

end Utf8

/-! ### Fields -/

theorem toNat_char_ofNat (b : UInt8) : (Char.ofNat b.toNat).toNat = b.toNat := by
  have small := b.toNat_lt
  have valid : b.toNat.isValidChar := Or.inl (by omega)
  rw [Char.ofNat, dif_pos valid]
  rfl

theorem utf8EncodeChar_ofNat {b : UInt8} (h : b.toNat < 128) :
    String.utf8EncodeChar (Char.ofNat b.toNat) = [b] := by
  have value : (Char.ofNat b.toNat).val.toNat = b.toNat := toNat_char_ofNat b
  have size : (Char.ofNat b.toNat).utf8Size = 1 := by
    rw [Char.utf8Size, if_pos]
    rw [UInt32.le_iff_toNat_le, value]
    exact Nat.le_of_lt_succ h
  rw [String.utf8EncodeChar_eq_singleton size]
  congr 1
  apply UInt8.toNat_inj.mp
  rw [UInt32.toNat_toUInt8, value]
  omega

theorem bytes_armor (text : String) : Utf8.bytes (armor text) = Base64.encode (Utf8.bytes text) := by
  have single : ∀ b ∈ Base64.encode (Utf8.bytes text),
      String.utf8EncodeChar (Char.ofNat b.toNat) = [b] := by
    intro b member
    have small := Base64.toNat_lt_of_mem_encode member
    exact utf8EncodeChar_ofNat (by omega)
  rw [armor, Base64.text, Utf8.bytes_ofList, List.flatMap_map, List.flatMap_congr single]
  exact List.flatMap_singleton' _

theorem separator_not_mem_armor (text : String) : separator ∉ (armor text).toList := by
  rw [armor, Base64.text, String.toList_ofList]
  intro member
  obtain ⟨b, found, same⟩ := List.mem_map.mp member
  have small := Base64.toNat_lt_of_mem_encode found
  have value := toNat_char_ofNat b
  rw [same, show separator.toNat = 126 from rfl] at value
  omega

/-- A field is read from its written form and from nothing else. -/
theorem unarmor_eq_ok_iff {field : Field} {token text : String} :
    unarmor field token = .ok text ↔ armor text = token := by
  constructor
  · intro h
    unfold unarmor at h
    split at h
    · cases h
    · rename_i bs read
      split at h
      · rename_i found written
        obtain rfl := Except.ok.inj h
        apply Utf8.bytes_inj.mp
        rw [bytes_armor, Utf8.text?_eq_some_iff.mp written, Base64.decode_eq_ok_iff.mp read]
      · cases h
  · rintro rfl
    have read : Base64.decode (Utf8.bytes (armor text)) = .ok (Utf8.bytes text) := by
      rw [bytes_armor, Base64.decode_encode]
    have written : Utf8.text? (Utf8.bytes text) = some text := Utf8.text?_eq_some_iff.mpr rfl
    simp only [unarmor, read, written]

theorem armor_inj {a b : String} : armor a = armor b ↔ a = b := by
  constructor
  · intro h
    have first : unarmor .context (armor a) = .ok a := unarmor_eq_ok_iff.mpr rfl
    have second : unarmor .context (armor a) = .ok b := unarmor_eq_ok_iff.mpr h.symm
    exact Except.ok.inj (first.symm.trans second)
  · rintro rfl
    rfl

theorem ofString_eq_ok_iff {text : String} {id : CallId} : CallId.ofString text = .ok id ↔ id.text = text := by
  unfold CallId.ofString
  constructor
  · intro h
    split at h
    · obtain rfl := Except.ok.inj h
      rfl
    · cases h
  · rintro rfl
    rw [dif_pos ⟨id.not_empty, id.no_separator⟩]

theorem CallId.ext_text {a b : CallId} (h : a.text = b.text) : a = b := by
  cases a
  cases b
  cases h
  rfl

/-! ### Tokens -/

theorem toList_closed (token : String) : (closed token).toList = token.toList ++ [separator] := by
  simp [closed]

theorem tokens_ne_nil (line : String) : tokens line ≠ [] := by
  simp [tokens]

theorem tokens_of_not_mem {token : String} (h : separator ∉ token.toList) : tokens token = [token] := by
  rw [tokens, List.splitOn_eq_singleton h, List.map_singleton, String.ofList_toList]

theorem tokens_closed_append {token : String} (h : separator ∉ token.toList) (rest : String) :
    tokens (closed token ++ rest) = token :: tokens rest := by
  rw [tokens, String.toList_append, toList_closed, List.append_assoc, List.singleton_append,
    List.splitOn_append_cons_self_of_not_mem h, List.map_cons, String.ofList_toList, tokens]

/-- A line is one token, or a token and the line behind its separator. -/
theorem tokens_cases (line : String) :
    (separator ∉ line.toList ∧ tokens line = [line]) ∨
      ∃ token rest, separator ∉ token.toList ∧ line = closed token ++ rest ∧
        tokens line = token :: tokens rest := by
  by_cases member : separator ∈ line.toList
  · obtain ⟨before, after, split, clean⟩ := List.eq_append_cons_of_mem member
    have clean' : separator ∉ (String.ofList before).toList := by
      rw [String.toList_ofList]
      exact clean
    have whole : line = closed (String.ofList before) ++ String.ofList after := by
      apply String.toList_inj.mp
      rw [String.toList_append, toList_closed, String.toList_ofList, String.toList_ofList, split]
      simp
    refine Or.inr ⟨String.ofList before, String.ofList after, clean', whole, ?_⟩
    rw [whole]
    exact tokens_closed_append clean' _
  · exact Or.inl ⟨member, tokens_of_not_mem member⟩

theorem tokens_eq_singleton {line token : String} (h : tokens line = [token]) :
    line = token ∧ separator ∉ token.toList := by
  rcases tokens_cases line with ⟨clean, alone⟩ | ⟨first, rest, _, _, more⟩
  · obtain rfl := List.singleton_inj.mp (alone.symm.trans h)
    exact ⟨rfl, clean⟩
  · rw [more] at h
    exact absurd (List.cons.inj h).2 (tokens_ne_nil rest)

theorem tokens_eq_cons_cons {line token next : String} {others : List String}
    (h : tokens line = token :: next :: others) :
    separator ∉ token.toList ∧ ∃ rest, line = closed token ++ rest ∧ tokens rest = next :: others := by
  rcases tokens_cases line with ⟨_, alone⟩ | ⟨first, rest, clean, whole, more⟩
  · rw [alone] at h
    cases h
  · obtain ⟨rfl, same⟩ := List.cons.inj (more.symm.trans h)
    exact ⟨clean, rest, whole, same⟩

end SoapRelay
