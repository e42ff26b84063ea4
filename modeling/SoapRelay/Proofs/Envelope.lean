import SoapRelay.Envelope.Numbered
import SoapRelay.Envelope.Reply
import SoapRelay.Envelope.Request
import SoapRelay.Proofs.Fields

/-!
# Envelopes and their lines

A request is read from the line that it is written as and from no other. The content that a
signature covers determines everything but the signature, for requests and replies together.
-/

namespace SoapRelay

namespace Request

theorem readOrganization_eq_ok_iff {token? organization? : Option String} :
    readOrganization token? = .ok organization? ↔ organization?.map armor = token? := by
  cases token? with
  | none =>
    constructor
    · intro h
      obtain rfl := pure_ok h
      rfl
    · intro h
      obtain rfl := Option.map_eq_none_iff.mp h
      rfl
  | some token =>
    constructor
    · intro h
      obtain ⟨text, found, rfl⟩ := map_ok h
      rw [Option.map_some, unarmor_eq_ok_iff.mp found]
    · intro h
      obtain ⟨text, rfl, same⟩ := Option.map_eq_some_iff.mp h
      have found : unarmor .organization token = .ok text := unarmor_eq_ok_iff.mpr same
      rw [readOrganization, found]
      rfl

theorem ofFields_eq_ok_iff {id context payload signature : String} {organization? : Option String}
    {r : Request} :
    ofFields id context payload organization? signature = .ok r ↔
      r.id.text = id ∧ armor r.context = context ∧ armor r.payload = payload ∧
        r.organization?.map armor = organization? ∧ r.signature = signature := by
  constructor
  · intro h
    unfold ofFields at h
    obtain ⟨organization, first, h⟩ := bind_ok h
    obtain ⟨name, second, h⟩ := bind_ok h
    obtain ⟨text, third, h⟩ := bind_ok h
    obtain ⟨body, fourth, h⟩ := bind_ok h
    obtain rfl := pure_ok h
    exact ⟨ofString_eq_ok_iff.mp second, unarmor_eq_ok_iff.mp third, unarmor_eq_ok_iff.mp fourth,
      readOrganization_eq_ok_iff.mp first, rfl⟩
  · rintro ⟨rfl, rfl, rfl, rfl, rfl⟩
    have first : readOrganization (r.organization?.map armor) = .ok r.organization? :=
      readOrganization_eq_ok_iff.mpr rfl
    have second : CallId.ofString r.id.text = .ok r.id := ofString_eq_ok_iff.mpr rfl
    have third : unarmor .context (armor r.context) = .ok r.context := unarmor_eq_ok_iff.mpr rfl
    have fourth : unarmor .payload (armor r.payload) = .ok r.payload := unarmor_eq_ok_iff.mpr rfl
    rw [ofFields, first, second, third, fourth]
    rfl

/-- The tokens of a request's line when its last one is given. -/
theorem tokens_unsigned_append (r : Request) {last : String} (clean : separator ∉ last.toList) :
    tokens (r.unsigned ++ last) =
      r.id.text :: armor r.context :: armor r.payload :: ((r.organization?.map armor).toList ++ [last]) := by
  cases r with
  | mk id context payload organization? signature =>
    cases organization? with
    | none =>
      simp only [unsigned, String.append_assoc, String.empty_append]
      rw [tokens_closed_append id.no_separator, tokens_closed_append (separator_not_mem_armor _),
        tokens_closed_append (separator_not_mem_armor _), tokens_of_not_mem clean]
      rfl
    | some organization =>
      simp only [unsigned, String.append_assoc]
      rw [tokens_closed_append id.no_separator, tokens_closed_append (separator_not_mem_armor _),
        tokens_closed_append (separator_not_mem_armor _),
        tokens_closed_append (separator_not_mem_armor _), tokens_of_not_mem clean]
      rfl

theorem decode_encode {r : Request} (clean : separator ∉ r.signature.toList) :
    decode r.encode = .ok r := by
  have cut := tokens_unsigned_append r clean
  have fields := (ofFields_eq_ok_iff (r := r)).mpr ⟨rfl, rfl, rfl, rfl, rfl⟩
  cases h : r.organization? with
  | none =>
    rw [h] at cut fields
    simp only [decode, encode, cut]
    exact fields
  | some organization =>
    rw [h] at cut fields
    simp only [decode, encode, cut]
    exact fields

theorem encode_of_decode {line : String} {r : Request} (h : decode line = .ok r) :
    r.encode = line ∧ separator ∉ r.signature.toList := by
  unfold decode at h
  split at h
  · rename_i id context payload signature cut
    obtain ⟨named, contextual, paid, organized, signed⟩ := ofFields_eq_ok_iff.mp h
    obtain ⟨_, afterId, rfl, second⟩ := tokens_eq_cons_cons cut
    obtain ⟨_, afterContext, rfl, third⟩ := tokens_eq_cons_cons second
    obtain ⟨_, afterPayload, rfl, last⟩ := tokens_eq_cons_cons third
    obtain ⟨rfl, clean⟩ := tokens_eq_singleton last
    have absent : r.organization? = none := Option.map_eq_none_iff.mp organized
    refine ⟨?_, signed ▸ clean⟩
    rw [encode, unsigned, absent, named, contextual, paid, signed]
    simp only [String.append_assoc, String.empty_append]
  · rename_i id context payload organization signature cut
    obtain ⟨named, contextual, paid, organized, signed⟩ := ofFields_eq_ok_iff.mp h
    obtain ⟨_, afterId, rfl, second⟩ := tokens_eq_cons_cons cut
    obtain ⟨_, afterContext, rfl, third⟩ := tokens_eq_cons_cons second
    obtain ⟨_, afterPayload, rfl, fourth⟩ := tokens_eq_cons_cons third
    obtain ⟨_, afterOrganization, rfl, last⟩ := tokens_eq_cons_cons fourth
    obtain ⟨rfl, clean⟩ := tokens_eq_singleton last
    obtain ⟨text, given, armored⟩ := Option.map_eq_some_iff.mp organized
    refine ⟨?_, signed ▸ clean⟩
    rw [encode, unsigned, given, named, contextual, paid, signed]
    simp only [armored, String.append_assoc]
  · cases h

/-- An empty organization is one more token than no organization. -/
theorem encode_absent_ne_empty (r : Request) :
    ({ r with organization? := none } : Request).encode ≠
      ({ r with organization? := some "" } : Request).encode := by
  intro same
  have lengths := congrArg String.length same
  simp only [encode, unsigned, closed, String.length_append, String.length_singleton, String.length_empty] at lengths
  omega

/-- A line is read as a request exactly if it is what the request is written as, and the request
could be written at all. Hence no other line is read as it, and a request without an organization
is never taken for one with an empty organization. -/
theorem decode_inverts_encode (line : String) (r : Request) :
    (decode line = .ok r ↔ r.encode = line ∧ separator ∉ r.signature.toList) ∧
      (∀ other, decode line = .ok r → decode other = .ok r → other = line) ∧
      ({ r with organization? := none } : Request).encode ≠
        ({ r with organization? := some "" } : Request).encode := by
  refine ⟨⟨encode_of_decode, ?_⟩, ?_, encode_absent_ne_empty r⟩
  · rintro ⟨rfl, clean⟩
    exact decode_encode clean
  · intro other read again
    obtain ⟨rfl, _⟩ := encode_of_decode read
    exact (encode_of_decode again).1.symm

theorem decode_inverts_encode_at_separator :
    decode "00000000000000000000000000000001~YX5i~fn4=~~k" =
        .ok ⟨.numbered 1, "a~b", "~~", some "", "k"⟩ ∧
      ∀ other, decode other = .ok ⟨.numbered 1, "a~b", "~~", some "", "k"⟩ →
        other = "00000000000000000000000000000001~YX5i~fn4=~~k" := by
  obtain ⟨read, only, _⟩ := decode_inverts_encode
    "00000000000000000000000000000001~YX5i~fn4=~~k" ⟨.numbered 1, "a~b", "~~", some "", "k"⟩
  have found := read.mpr ⟨by decide +kernel, by decide⟩
  exact ⟨found, fun other => only other found⟩

theorem unsigned_inj {a b : Request} (h : a.unsigned = b.unsigned) :
    a.id = b.id ∧ a.context = b.context ∧ a.payload = b.payload ∧ a.organization? = b.organization? := by
  have empty : separator ∉ "".toList := by simp
  have same := tokens_unsigned_append a empty
  rw [h, tokens_unsigned_append b empty] at same
  obtain ⟨named, same⟩ := List.cons.inj same
  obtain ⟨contextual, same⟩ := List.cons.inj same
  obtain ⟨paid, same⟩ := List.cons.inj same
  have tokens := congrArg List.head? (List.append_cancel_right same)
  rw [Option.head?_toList, Option.head?_toList] at tokens
  have organized : a.organization? = b.organization? :=
    Option.map_injective (fun _ _ => armor_inj.mp) tokens.symm
  exact ⟨CallId.ext_text named.symm, (armor_inj.mp contextual).symm, (armor_inj.mp paid).symm, organized⟩

end Request

namespace Reply

/-- The tokens of a reply's line when its last one is given. -/
theorem tokens_unsigned_append (r : Reply) {last : String} (clean : separator ∉ last.toList) :
    tokens (r.unsigned ++ last) = [r.id.text, armor r.response, last] := by
  rw [unsigned, String.append_assoc, tokens_closed_append r.id.no_separator,
    tokens_closed_append (separator_not_mem_armor _), tokens_of_not_mem clean]

theorem decode_encode {r : Reply} (clean : separator ∉ r.signature.toList) : decode r.encode = .ok r := by
  have named : CallId.ofString r.id.text = .ok r.id := ofString_eq_ok_iff.mpr rfl
  have response : unarmor .response (armor r.response) = .ok r.response := unarmor_eq_ok_iff.mpr rfl
  simp only [decode, encode, tokens_unsigned_append r clean, named, response]
  rfl

theorem unsigned_inj {a b : Reply} (h : a.unsigned = b.unsigned) : a.id = b.id ∧ a.response = b.response := by
  have empty : separator ∉ "".toList := by simp
  have same := tokens_unsigned_append a empty
  rw [h, tokens_unsigned_append b empty] at same
  obtain ⟨named, same⟩ := List.cons.inj same
  obtain ⟨response, _⟩ := List.cons.inj same
  exact ⟨CallId.ext_text named.symm, (armor_inj.mp response).symm⟩

/-- A signature of a request signs no reply, for the two have different numbers of tokens. -/
theorem unsigned_ne_request (a : Reply) (b : Request) : a.unsigned ≠ b.unsigned := by
  intro h
  have empty : separator ∉ "".toList := by simp
  have same := Reply.tokens_unsigned_append a empty
  rw [h, Request.tokens_unsigned_append b empty] at same
  have count := congrArg List.length same
  simp at count

end Reply

end SoapRelay
