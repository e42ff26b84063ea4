import Mathlib.Data.List.DropRight
import SoapRelay.Http.Call

/-!
# Where outbound calls go

The context of a request is put behind the endpoint. Whatever it holds, the URI of the call names the
scheme and the authority of the endpoint, and so its user name, its host and its port.
-/

namespace SoapRelay

/-! ### What stands behind an authority -/

/-- A text that may stand behind an authority: it is empty or begins with a slash. -/
def Rooted (path : List Char) : Prop :=
  path = [] ∨ ∃ rest, path = '/' :: rest

theorem Rooted.of_isPrefix {path whole : List Char} (rooted : Rooted whole) (part : path <+: whole) : Rooted path := by
  obtain ⟨more, rfl⟩ := part
  cases path with
  | nil => exact Or.inl rfl
  | cons c path =>
    rcases rooted with none | ⟨rest, slash⟩
    · cases none
    · obtain ⟨rfl, _⟩ := List.cons.inj slash
      exact Or.inr ⟨path, rfl⟩

theorem Rooted.append {path more : List Char} (rooted : Rooted path) (next : Rooted more) : Rooted (path ++ more) := by
  rcases rooted with rfl | ⟨rest, rfl⟩
  · exact next
  · exact Or.inr ⟨rest ++ more, rfl⟩

/-- The slashes at the end of a text are cut off, but none before its last other character. -/
theorem rdropWhile_slash_append {front : List Char} (nonempty : front ≠ []) (last : front.getLast nonempty ≠ '/')
    (path : List Char) :
    (front ++ path).rdropWhile (· = '/') = front ++ path.rdropWhile (· = '/') := by
  induction path using List.reverseRecOn with
  | nil =>
    rw [List.rdropWhile_nil, List.append_nil, List.rdropWhile_eq_self_iff]
    exact fun _ slash => last (of_decide_eq_true slash)
  | append_singleton path c ih =>
    rw [← List.append_assoc]
    by_cases slash : c = '/'
    · subst slash
      rw [List.rdropWhile_concat_pos (· = '/') _ _ rfl, ih, List.rdropWhile_concat_pos (· = '/') _ _ rfl]
    · have kept : ¬decide (c = '/') = true := fun yes => slash (of_decide_eq_true yes)
      rw [List.rdropWhile_concat_neg (· = '/') _ _ kept, List.rdropWhile_concat_neg (· = '/') _ _ kept,
        List.append_assoc]

/-- The context is put behind the endpoint, less some of what ends the endpoint. -/
theorem callUri_toList {front : List Char} (nonempty : front ≠ []) (last : front.getLast nonempty ≠ '/')
    {path : List Char} (rooted : Rooted path) {endpoint : String} (whole : endpoint.toList = front ++ path)
    (context : String) : ∃ behind, Rooted behind ∧ (callUri endpoint context).toList = front ++ behind := by
  have base : (endpoint.toList.reverse.dropWhile (· = '/')).reverse = front ++ path.rdropWhile (· = '/') := by
    rw [← rdropWhile_slash_append nonempty last, whole]
    rfl
  have rooted : Rooted (path.rdropWhile (· = '/')) := rooted.of_isPrefix (List.rdropWhile_prefix _ _)
  unfold callUri
  rw [base]
  split
  · rename_i none
    refine ⟨_, rooted, ?_⟩
    rw [String.toList_append, none, String.toList_ofList, List.append_nil]
  · rename_i rest slash
    refine ⟨_, rooted.append (Or.inr ⟨rest, slash⟩), ?_⟩
    rw [String.toList_append, String.toList_ofList, List.append_assoc]
  · refine ⟨_, rooted.append (Or.inr ⟨context.toList, rfl⟩), ?_⟩
    rw [String.toList_append, String.toList_append, String.toList_ofList, List.append_assoc, List.append_assoc]
    rfl

/-! ### Reading the authority -/

namespace Uri

variable {authority behind : List Char}

/-- Characters that may stand in an authority as far as its end goes. -/
def Bare (authority : List Char) : Prop :=
  ∀ c ∈ authority, endsAuthority c = false

theorem takeWhile_bare (bare : Bare authority) (rooted : Rooted behind) :
    (authority ++ behind).takeWhile (!endsAuthority ·) = authority := by
  have all : ∀ c ∈ authority, (!endsAuthority c) = true := by
    intro c member
    rw [bare c member]
    rfl
  rw [List.takeWhile_append_of_pos all]
  rcases rooted with rfl | ⟨rest, rfl⟩
  · exact List.append_nil _
  · rw [List.takeWhile_cons_of_neg (by decide), List.append_nil]

theorem splitAuthority_bare (bare : Bare authority) (rooted : Rooted behind) {found rest : List Char}
    (split : splitAuthority (authority ++ behind) = some (found, rest)) : found = authority := by
  unfold splitAuthority at split
  rw [takeWhile_bare bare rooted] at split
  obtain ⟨scan, _, accepted⟩ := Option.bind_eq_some_iff.mp split
  split at accepted
  · exact (Prod.mk.inj (Option.some.inj accepted)).1.symm
  · cases accepted

theorem splitScheme_https (rest : List Char) :
    splitScheme ("https://".toList ++ rest) = some (some .https, rest) := by
  have notHttp : startsWithAnyCase "http://".toList ("https://".toList ++ rest) = false := rfl
  have https : startsWithAnyCase "https://".toList ("https://".toList ++ rest) = true := rfl
  unfold splitScheme
  rw [notHttp, https]
  rfl

/-- An absolute URI over TLS names what stands before its path. -/
theorem parse?_https (bare : Bare authority) (rooted : Rooted behind) {text : String}
    (whole : text.toList = "https://".toList ++ authority ++ behind) {u : Uri} (parsed : parse? text = some u) :
    u.scheme? = some .https ∧ u.authority = String.ofList authority := by
  have full : parseFull? ("https://".toList ++ (authority ++ behind)) = some u := by
    unfold parse? at parsed
    rw [whole, List.append_assoc] at parsed
    split at parsed
    · cases parsed
    · exact parsed
  unfold parseFull? at full
  rw [splitScheme_https] at full
  obtain ⟨⟨scheme?, rest⟩, same, behindScheme⟩ := Option.bind_eq_some_iff.mp full
  obtain ⟨rfl, rfl⟩ := Prod.mk.inj (Option.some.inj same)
  obtain ⟨⟨found, rest⟩, split, behindAuthority⟩ := Option.bind_eq_some_iff.mp behindScheme
  obtain rfl := splitAuthority_bare bare rooted split
  dsimp only at behindAuthority
  split at behindAuthority
  · cases behindAuthority
  · obtain ⟨_, _, made⟩ := Option.bind_eq_some_iff.mp behindAuthority
    obtain rfl := Option.some.inj made
    exact ⟨rfl, rfl⟩

/-- A URI over TLS that has an authority has a host, and is not refused. -/
theorem not_refused {text : String} {u : Uri} (parsed : parse? text = some u) (scheme : u.scheme? = some .https)
    (named : u.authority ≠ "") : refusal? text = none := by
  have secure : u.isSecure = true := by
    unfold isSecure
    rw [scheme]
    decide +kernel
  have host : u.host?.isNone = false := by
    unfold host?
    split
    · rename_i empty
      exact absurd (String.isEmpty_iff.mp empty) named
    · dsimp only
      split
      · rfl
      · rfl
  unfold refusal?
  rw [parsed]
  dsimp only
  rw [secure, host]
  rfl

end Uri

/-! ### Endpoints over TLS -/

/-- A text that is an authority over TLS with what may stand behind it. -/
structure Uri.Leads (text authority : String) : Prop where
  named : authority ≠ ""
  bare : Bare authority.toList
  whole : ∃ path, Rooted path ∧ text.toList = "https://".toList ++ authority.toList ++ path

variable {text endpoint authority : String} {u : Uri}

theorem Uri.Leads.parsed (leads : Leads text authority) (parsed : parse? text = some u) :
    u.scheme? = some .https ∧ u.authority = authority := by
  obtain ⟨path, rooted, whole⟩ := leads.whole
  have found := parse?_https leads.bare rooted whole parsed
  rwa [String.ofList_toList] at found

theorem Uri.Leads.not_refused (leads : Leads text authority) (parsed : parse? text = some u) :
    refusal? text = none := by
  obtain ⟨scheme, found⟩ := leads.parsed parsed
  exact Uri.not_refused parsed scheme (found ▸ leads.named)

/-- The URI of a call leads where the endpoint leads, whatever the context. -/
theorem callUri_leads (leads : Uri.Leads endpoint authority) (context : String) :
    Uri.Leads (callUri endpoint context) authority := by
  obtain ⟨path, rooted, whole⟩ := leads.whole
  have nonempty : authority.toList ≠ [] := fun none => leads.named (String.toList_inj.mp none)
  have last : ("https://".toList ++ authority.toList).getLast
      (List.append_ne_nil_of_right_ne_nil _ nonempty) ≠ '/' := by
    rw [List.getLast_append_of_ne_nil _ nonempty]
    intro slash
    have bare := leads.bare _ (List.getLast_mem nonempty)
    rw [slash] at bare
    cases bare
  exact ⟨leads.named, leads.bare, callUri_toList _ last rooted whole context⟩

/-- The context of a request cannot redirect its call. For an endpoint over TLS, two URIs that are made of it have its
scheme and its authority, and so one user name, one host and one port, whatever the two contexts are; and neither
is refused. -/
theorem context_cannot_redirect {path a b : String} {v : Uri} (whole : endpoint = "https://" ++ authority ++ path)
    (named : authority ≠ "") (bare : ∀ c ∈ authority.toList, c ≠ '/' ∧ c ≠ '?' ∧ c ≠ '#')
    (rooted : path = "" ∨ ∃ rest, path = "/" ++ rest) (first : Uri.parse? (callUri endpoint a) = some u)
    (second : Uri.parse? (callUri endpoint b) = some v) :
    (u.scheme? = some .https ∧ u.authority = authority ∧ refusal? (callUri endpoint a) = none) ∧
      (v.scheme? = some .https ∧ v.authority = authority ∧ refusal? (callUri endpoint b) = none) ∧
      u.host? = v.host? ∧
      ∀ e, Uri.parse? endpoint = some e → e.scheme? = some .https ∧ e.authority = authority ∧ e.host? = u.host? := by
  have leads : Uri.Leads endpoint authority := by
    refine ⟨named, ?_, path.toList, ?_, ?_⟩
    · intro c member
      obtain ⟨slash, question, hash⟩ := bare c member
      simp [Uri.endsAuthority, slash, question, hash]
    · rcases rooted with rfl | ⟨rest, rfl⟩
      · exact Or.inl rfl
      · exact Or.inr ⟨rest.toList, String.toList_append⟩
    · rw [whole, String.toList_append, String.toList_append]
  have host : ∀ x y : Uri, x.authority = authority → y.authority = authority → x.host? = y.host? := by
    intro x y found same
    unfold Uri.host?
    rw [found, same]
  have here := callUri_leads leads a
  have there := callUri_leads leads b
  obtain ⟨scheme, found⟩ := here.parsed first
  obtain ⟨scheme', found'⟩ := there.parsed second
  refine ⟨⟨scheme, found, here.not_refused first⟩, ⟨scheme', found', there.not_refused second⟩,
    host u v found found', ?_⟩
  intro e parsed
  obtain ⟨same, named⟩ := leads.parsed parsed
  exact ⟨same, named, host e u named found⟩

/-- Contexts that begin like a host of their own. -/
theorem context_cannot_redirect_of_hostile : ∃ u v,
    Uri.parse? (callUri "https://bridge@platform.test:8443//" "@evil.test:1") = some u ∧
      Uri.parse? (callUri "https://bridge@platform.test:8443//" "//evil.test/..?x#y") = some v ∧
      u.authority = "bridge@platform.test:8443" ∧ v.authority = "bridge@platform.test:8443" := by
  have first : Uri.parse? (callUri "https://bridge@platform.test:8443//" "@evil.test:1") =
      some ⟨some .https, "bridge@platform.test:8443", "/@evil.test:1", none⟩ := by decide +kernel
  have second : Uri.parse? (callUri "https://bridge@platform.test:8443//" "//evil.test/..?x#y") =
      some ⟨some .https, "bridge@platform.test:8443", "//evil.test/..", some "x"⟩ := by decide +kernel
  have whole : "https://bridge@platform.test:8443//" = "https://" ++ "bridge@platform.test:8443" ++ "//" := by
    decide +kernel
  have all : "bridge@platform.test:8443".toList.all fun c => c ≠ '/' ∧ c ≠ '?' ∧ c ≠ '#' := by decide +kernel
  have bare := fun c member => of_decide_eq_true (List.all_eq_true.mp all c member)
  have rooted : "//" = "" ∨ ∃ rest, "//" = "/" ++ rest := Or.inr ⟨"/", by decide +kernel⟩
  have named : "bridge@platform.test:8443" ≠ "" := by decide +kernel
  obtain ⟨⟨_, here, _⟩, ⟨_, there, _⟩, _⟩ := context_cannot_redirect whole named bare rooted first second
  exact ⟨_, _, first, second, here, there⟩

end SoapRelay
