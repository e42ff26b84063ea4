import SoapRelay.Proofs.Envelope

/-!
# What follows a reply

A reply is read off the front of its line. Whatever stands behind a third separator changes nothing of
what is read, and a line is too short for a reply exactly if it has fewer than two separators.
-/

namespace SoapRelay

theorem tokens_closed (line rest : String) : tokens (closed line ++ rest) = tokens line ++ tokens rest := by
  simp only [tokens, String.toList_append, toList_closed, List.append_assoc, List.singleton_append,
    List.splitOn_append_cons_self, List.map_append]

/-- The separators of a line stand between its tokens. -/
theorem length_tokens (line : String) : (tokens line).length = line.toList.count separator + 1 := by
  induction size : line.length using Nat.strongRecOn generalizing line with
  | ind size ih =>
    subst size
    rcases tokens_cases line with ⟨clean, alone⟩ | ⟨token, rest, clean, whole, more⟩
    · simp [alone, List.count_eq_zero_of_not_mem clean]
    · have shorter : rest.length < line.length := by simp [whole, closed]
      have counted : line.toList.count separator = rest.toList.count separator + 1 := by
        simp [whole, toList_closed, List.count_eq_zero_of_not_mem clean]
      simp [more, ih _ shorter rest rfl, counted]

theorem ofString_ne_tokenCount (text : String) (kind : EnvelopeKind) (count : Nat) :
    CallId.ofString text ≠ .error (.tokenCount kind count) := by
  unfold CallId.ofString
  split <;> simp

theorem unarmor_ne_tokenCount (field : Field) (token : String) (kind : EnvelopeKind) (count : Nat) :
    unarmor field token ≠ .error (.tokenCount kind count) := by
  unfold unarmor
  split
  · simp
  · split <;> simp

namespace Reply

section Read

variable {line id response signature : String} {others : List String}

theorem decode_eq_ok_iff (cut : tokens line = id :: response :: signature :: others) {r : Reply} :
    decode line = .ok r ↔ r.id.text = id ∧ armor r.response = response ∧ r.signature = signature := by
  constructor
  · intro h
    simp only [decode, cut] at h
    obtain ⟨name, first, h⟩ := bind_ok h
    obtain ⟨text, second, h⟩ := bind_ok h
    obtain rfl := pure_ok h
    exact ⟨ofString_eq_ok_iff.mp first, unarmor_eq_ok_iff.mp second, rfl⟩
  · rintro ⟨rfl, rfl, rfl⟩
    have first : CallId.ofString r.id.text = .ok r.id := ofString_eq_ok_iff.mpr rfl
    have second : unarmor .response (armor r.response) = .ok r.response := unarmor_eq_ok_iff.mpr rfl
    simp only [decode, cut, first, second]
    rfl

theorem decode_ne_tokenCount (cut : tokens line = id :: response :: signature :: others) (kind : EnvelopeKind)
    (count : Nat) : decode line ≠ .error (.tokenCount kind count) := by
  simp only [decode, cut]
  cases first : CallId.ofString id with
  | error reason =>
    rintro ⟨⟩
    exact ofString_ne_tokenCount _ _ _ first
  | ok name =>
    cases second : unarmor .response response with
    | error reason =>
      rintro ⟨⟩
      exact unarmor_ne_tokenCount _ _ _ _ second
    | ok text =>
      intro same
      cases same

end Read

/-- A line has the tokens of a reply, or too few separators for them. -/
theorem tokens_cases (line : String) :
    (∃ id response signature others, tokens line = id :: response :: signature :: others ∧
        2 ≤ line.toList.count separator) ∨
      decode line = .error (.tokenCount .reply (tokens line).length) ∧ line.toList.count separator < 2 := by
  have length := length_tokens line
  rcases cut : tokens line with _ | ⟨id, _ | ⟨response, _ | ⟨signature, others⟩⟩⟩
  · exact absurd cut (tokens_ne_nil line)
  all_goals simp only [cut, List.length_cons, List.length_nil] at length
  · exact .inr ⟨by simp [decode, cut], by omega⟩
  · exact .inr ⟨by simp [decode, cut], by omega⟩
  · exact .inl ⟨id, response, signature, others, rfl, by omega⟩

theorem decode_eq_tokenCount_iff {line : String} :
    (∃ kind count, decode line = .error (.tokenCount kind count)) ↔ line.toList.count separator < 2 := by
  rcases tokens_cases line with ⟨id, response, signature, others, cut, enough⟩ | ⟨refused, few⟩
  · refine ⟨?_, fun few => by omega⟩
    rintro ⟨kind, count, refused⟩
    exact absurd refused (decode_ne_tokenCount cut kind count)
  · exact ⟨fun _ => few, fun _ => ⟨_, _, refused⟩⟩

/-- What is read depends on the first three tokens alone. -/
theorem decode_closed_append {line : String} (enough : 2 ≤ line.toList.count separator) (trailer : String) :
    decode (closed line ++ trailer) = decode line := by
  rcases tokens_cases line with ⟨id, response, signature, others, cut, _⟩ | ⟨_, few⟩
  · have longer : tokens (closed line ++ trailer) = id :: response :: signature :: (others ++ tokens trailer) := by
      rw [tokens_closed, cut]
      rfl
    simp only [decode, cut, longer]
  · omega

theorem count_separator_encode (r : Reply) : 2 ≤ r.encode.toList.count separator := by
  simp only [encode, unsigned, String.toList_append, toList_closed, List.count_append, List.count_singleton_self]
  omega

theorem encode_of_decode {line : String} {r : Reply} (read : decode line = .ok r) :
    separator ∉ r.signature.toList ∧ (line = r.encode ∨ ∃ trailer, line = closed r.encode ++ trailer) := by
  rcases tokens_cases line with ⟨id, response, signature, others, cut, _⟩ | ⟨refused, _⟩
  · obtain ⟨rfl, rfl, rfl⟩ := (decode_eq_ok_iff cut).mp read
    obtain ⟨_, afterId, rfl, second⟩ := tokens_eq_cons_cons cut
    obtain ⟨_, afterResponse, rfl, third⟩ := tokens_eq_cons_cons second
    cases others with
    | nil =>
      obtain ⟨rfl, clean⟩ := tokens_eq_singleton third
      exact ⟨clean, .inl (by simp only [encode, unsigned, String.append_assoc])⟩
    | cons next others =>
      obtain ⟨clean, trailer, rfl, _⟩ := tokens_eq_cons_cons third
      exact ⟨clean, .inr ⟨trailer, by simp only [encode, unsigned, closed, String.append_assoc]⟩⟩
  · rw [refused] at read
    cases read

/-- A line is read as a reply exactly if it is what the reply is written as, or that and a separator and
any text behind it. What follows changes neither the outcome nor anything in it, so what is signed and
the token that is checked stay the same, and only a line with fewer than two separators has too few
tokens. -/
theorem decode_ignores_trailers (line : String) (r : Reply) :
    (decode line = .ok r ↔ separator ∉ r.signature.toList ∧
        (line = r.encode ∨ ∃ trailer, line = r.encode ++ "~" ++ trailer)) ∧
      (2 ≤ line.toList.count separator → ∀ trailer, decode (line ++ "~" ++ trailer) = decode line) ∧
      ((∃ kind count, decode line = .error (.tokenCount kind count)) ↔ line.toList.count separator < 2) := by
  refine ⟨⟨encode_of_decode, ?_⟩, decode_closed_append, decode_eq_tokenCount_iff⟩
  rintro ⟨clean, rfl | ⟨trailer, rfl⟩⟩
  · exact decode_encode clean
  · exact (decode_closed_append (count_separator_encode r) trailer).trans (decode_encode clean)

theorem decode_ignores_trailers_of_two_more :
    decode "00000000000000000000000000000001~PG9rLz4=~sig~extra~more" = .ok ⟨.numbered 1, "<ok/>", "sig"⟩ ∧
      2 ≤ "00000000000000000000000000000001~PG9rLz4=~sig".toList.count separator ∧
      decode ("00000000000000000000000000000001~PG9rLz4=~sig" ++ "~" ++ "extra~more") =
        decode "00000000000000000000000000000001~PG9rLz4=~sig" := by
  have enough : 2 ≤ "00000000000000000000000000000001~PG9rLz4=~sig".toList.count separator := by decide
  have read := (decode_ignores_trailers "00000000000000000000000000000001~PG9rLz4=~sig~extra~more"
    ⟨.numbered 1, "<ok/>", "sig"⟩).1
  have same := (decode_ignores_trailers "00000000000000000000000000000001~PG9rLz4=~sig"
    ⟨.numbered 1, "<ok/>", "sig"⟩).2.1 enough "extra~more"
  exact ⟨read.mpr ⟨by decide, .inr ⟨"extra~more", by decide +kernel⟩⟩, enough, same⟩

end Reply

end SoapRelay
