import Mathlib.Data.List.TakeWhile
import SoapRelay.Identity

/-!
# Common names of certificates

The search for a common name looks at one attribute after the other, the most specific one first,
for no separator of a rendered name completes the text `CN=`. The main statement is that the most
specific common name decides, up to its first comma, as long as no other attribute reads like one.
-/

namespace SoapRelay.Identity

/-- The opening of a common name. -/
def opening : List Char := ['C', 'N', '=']

/-- An attribute as it stands in a rendered name. -/
def rendered (a : String × String) : String :=
  a.1 ++ "=" ++ shown a.2

/-- The text before the first comma. -/
def untilComma (value : String) : List Char :=
  value.toList.takeWhile (· ≠ ',')

/-- The last common name in certificate order. -/
def mostSpecific? (attributes : List (String × String)) : Option String :=
  (attributes.reverse.find? (·.1 = "CN")).map (·.2)

/-- Nothing more specific than the common name reads like one, and before its first comma the common name
has neither a line break nor a zero character. -/
structure Plain (attributes : List (String × String)) : Prop where
  before : ∀ a ∈ attributes.reverse.takeWhile (·.1 ≠ "CN"), ¬ opening <:+: (rendered a).toList
  unbroken : ∀ value, mostSpecific? attributes = some value → '\n' ∉ untilComma value
  uncut : ∀ value, mostSpecific? attributes = some value → '\x00' ∉ untilComma value

/-- A zero character behind the first comma does not matter. -/
theorem untilComma_shown {value : String} (uncut : '\x00' ∉ untilComma value) :
    untilComma (shown value) = untilComma value := by
  have whole : (untilComma value).takeWhile (· ≠ '\x00') = untilComma value := by
    apply List.takeWhile_eq_self_iff.mpr
    intro c member
    exact decide_eq_true fun zero => uncut (zero ▸ member)
  rw [untilComma, List.takeWhile_takeWhile] at whole
  rw [untilComma, untilComma, shown, String.toList_ofList, List.takeWhile_takeWhile]
  simpa only [and_comm] using whole

/-! ### The search in one text -/

theorem value?_of_unbroken {cs : List Char} (h : '\n' ∉ cs.takeWhile (· ≠ ',')) :
    value? cs = some (cs.takeWhile (· ≠ ',')) := by
  induction cs with
  | nil => rfl
  | cons c rest ih =>
    by_cases comma : c = ','
    · simp [value?, comma]
    · rw [List.takeWhile_cons_of_pos (by simpa using comma)] at h ⊢
      obtain ⟨whole, later⟩ := not_or.mp (List.mem_cons.not.mp h)
      rw [value?, if_neg comma, if_neg (Ne.symm whole), ih later]
      rfl

/-- A comma ends a value, whatever comes after it. -/
theorem value?_append_comma (cs rest : List Char) : value? (cs ++ ',' :: rest) = value? cs := by
  induction cs with
  | nil => rfl
  | cons c cs ih => simp only [List.cons_append, value?, ih]

theorem firstValue?_opening (rest : List Char) :
    firstValue? (opening ++ rest) = (value? rest).or (firstValue? ('N' :: '=' :: rest)) := by
  rw [opening, List.cons_append, List.cons_append, List.cons_append, List.nil_append, firstValue?]

theorem firstValue?_cons {c : Char} {rest : List Char} (h : ¬ opening <+: c :: rest) :
    firstValue? (c :: rest) = firstValue? rest := by
  rw [firstValue?]
  rintro tail rfl rfl
  exact h ⟨tail, rfl⟩

theorem firstValue?_of_not_infix {cs : List Char} (h : ¬ opening <:+: cs) : firstValue? cs = none := by
  induction cs with
  | nil => rfl
  | cons c rest ih =>
    rw [firstValue?_cons fun first => h first.isInfix]
    exact ih fun later => h (List.infix_cons later)

theorem opening_prefix_of_comma {cs rest : List Char} (h : opening <+: cs ++ ',' :: rest) : opening <+: cs := by
  obtain ⟨tail, split⟩ := h
  rcases List.append_eq_append_iff.mp split with ⟨others, inside, _⟩ | ⟨others, inside, same⟩
  · exact ⟨others, inside.symm⟩
  · cases others with
    | nil =>
      rw [List.append_nil] at inside
      exact inside ▸ List.prefix_refl _
    | cons c others =>
      obtain ⟨rfl, _⟩ := List.cons.inj same
      have member : ',' ∈ opening := by
        rw [inside]
        exact List.mem_append_right _ List.mem_cons_self
      exact absurd member (by decide)

/-- The search starts anew after a comma, if it found nothing before. -/
theorem firstValue?_append_comma (cs rest : List Char) :
    firstValue? (cs ++ ',' :: rest) = (firstValue? cs).or (firstValue? rest) := by
  induction cs with
  | nil => rfl
  | cons c tail ih =>
    by_cases first : opening <+: c :: tail
    · obtain ⟨value, split⟩ := first
      obtain ⟨rfl, rfl⟩ := List.cons.inj split
      show firstValue? (opening ++ (value ++ ',' :: rest)) = (firstValue? (opening ++ value)).or _
      rw [firstValue?_opening, firstValue?_opening, value?_append_comma, Option.or_assoc]
      exact congrArg _ ih
    · have other : ¬ opening <+: c :: (tail ++ ',' :: rest) := fun h => first (opening_prefix_of_comma h)
      rw [List.cons_append, firstValue?_cons other, firstValue?_cons first]
      exact ih

/-! ### The search in a rendered name -/

theorem firstValue?_rendered {value : String} (unbroken : '\n' ∉ untilComma value)
    (uncut : '\x00' ∉ untilComma value) :
    firstValue? (rendered ("CN", value)).toList = some (untilComma value) := by
  have text : (rendered ("CN", value)).toList = opening ++ (shown value).toList := by
    simp [rendered, opening]
  rw [← untilComma_shown uncut] at unbroken ⊢
  rw [text, firstValue?_opening, value?_of_unbroken unbroken]
  rfl

/-- The attributes are searched one after the other. -/
theorem firstValue?_intercalate (attributes : List (String × String)) :
    firstValue? (", ".intercalate (attributes.map rendered)).toList =
      attributes.findSome? fun a => firstValue? (rendered a).toList := by
  induction attributes with
  | nil => rfl
  | cons a rest ih =>
    cases rest with
    | nil => simp
    | cons b rest =>
      rw [List.map_cons, List.map_cons, String.intercalate_cons_cons, ← List.map_cons]
      have comma : ", ".toList = [',', ' '] := rfl
      have blank : ∀ cs, firstValue? (' ' :: cs) = firstValue? cs := fun _ => rfl
      rw [String.append_assoc, String.toList_append, String.toList_append, comma, List.cons_append,
        List.singleton_append, firstValue?_append_comma, blank, ih]
      generalize b :: rest = others
      rw [List.findSome?_cons]
      cases firstValue? (rendered a).toList with
      | none => rfl
      | some value => rfl

/-- The first common name decides if nothing before it reads like one. -/
theorem findSome?_firstValue? {attributes : List (String × String)}
    (before : ∀ a ∈ attributes.takeWhile (·.1 ≠ "CN"), ¬ opening <:+: (rendered a).toList)
    (clean : ∀ a, attributes.find? (·.1 = "CN") = some a → '\n' ∉ untilComma a.2 ∧ '\x00' ∉ untilComma a.2) :
    (attributes.findSome? fun a => firstValue? (rendered a).toList) =
      (attributes.find? (·.1 = "CN")).map fun a => untilComma a.2 := by
  induction attributes with
  | nil => rfl
  | cons a rest ih =>
    obtain ⟨type, value⟩ := a
    by_cases named : type = "CN"
    · subst named
      have found : ((("CN", value) :: rest).find? (·.1 = "CN")) = some ("CN", value) := rfl
      obtain ⟨unbroken, uncut⟩ := clean _ found
      have decided := firstValue?_rendered unbroken uncut
      rw [found, List.findSome?_cons, decided]
      rfl
    · rw [List.takeWhile_cons_of_pos (by simpa using named)] at before
      rw [List.find?_cons_of_neg (by simpa using named)] at clean ⊢
      have silent := firstValue?_of_not_infix (before _ List.mem_cons_self)
      rw [List.findSome?_cons, silent]
      exact ih (fun a member => before a (List.mem_cons_of_mem _ member)) clean

theorem firstValue?_subjectText {attributes : List (String × String)} (plain : Plain attributes) :
    firstValue? (subjectText attributes).toList = (mostSpecific? attributes).map untilComma := by
  have clean : ∀ a, attributes.reverse.find? (·.1 = "CN") = some a →
      '\n' ∉ untilComma a.2 ∧ '\x00' ∉ untilComma a.2 := by
    intro a found
    have known : mostSpecific? attributes = some a.2 := by
      rw [mostSpecific?, found]
      rfl
    exact ⟨plain.unbroken _ known, plain.uncut _ known⟩
  have search := firstValue?_intercalate attributes.reverse
  rw [findSome?_firstValue? plain.before clean] at search
  rw [mostSpecific?, Option.map_map]
  exact search

theorem commonName?_eq_some_iff {subject v : String} :
    commonName? subject = some v ↔
      v ≠ "" ∧ ∃ value, firstValue? subject.toList = some value ∧ v = String.ofList (Blank.trim value) := by
  unfold commonName?
  constructor
  · intro h
    split at h
    · rename_i value found
      split at h
      · cases h
      · rename_i name nonempty
        obtain rfl := Option.some.inj h
        exact ⟨fun empty => nonempty (String.ofList_eq_empty_iff.mp empty), value, found, rfl⟩
    · cases h
  · rintro ⟨given, value, found, rfl⟩
    rw [found]
    dsimp only
    split
    · rename_i blank
      rw [blank] at given
      exact absurd rfl given
    · rfl

theorem mem_of_mostSpecific? {attributes : List (String × String)} {value : String}
    (h : mostSpecific? attributes = some value) : ("CN", value) ∈ attributes := by
  obtain ⟨⟨type, value⟩, found, rfl⟩ := Option.map_eq_some_iff.mp h
  have member := List.mem_reverse.mp (List.mem_of_find?_eq_some found)
  have named : type = "CN" := by simpa using List.find?_some found
  exact named ▸ member

/-- The common name of a plain subject is the text before the first comma of its most specific
common name, without blanks at its ends, unless that is empty; it is the whole value if there is no
comma in it. -/
theorem commonName?_subjectText {attributes : List (String × String)} (plain : Plain attributes) :
    (∀ v, commonName? (subjectText attributes) = some v ↔
      v ≠ "" ∧ ∃ value, mostSpecific? attributes = some value ∧
        v = String.ofList (Blank.trim (untilComma value))) ∧
      ∀ v, commonName? (subjectText attributes) = some v → ∃ value, ("CN", value) ∈ attributes ∧
        v = String.ofList (Blank.trim (untilComma value)) ∧
        (',' ∉ value.toList → v = String.ofList (Blank.trim value.toList)) := by
  have search : ∀ v, commonName? (subjectText attributes) = some v ↔
      v ≠ "" ∧ ∃ value, mostSpecific? attributes = some value ∧
        v = String.ofList (Blank.trim (untilComma value)) := by
    intro v
    rw [commonName?_eq_some_iff, firstValue?_subjectText plain]
    simp only [Option.map_eq_some_iff, exists_exists_and_eq_and]
  refine ⟨search, ?_⟩
  intro v named
  obtain ⟨_, value, found, same⟩ := (search v).mp named
  refine ⟨value, mem_of_mostSpecific? found, same, ?_⟩
  intro whole
  have all : untilComma value = value.toList := by
    apply List.takeWhile_eq_self_iff.mpr
    intro c member
    exact decide_eq_true fun comma => whole (comma ▸ member)
  rw [same, all]

/-- What stands behind a zero character of a more specific attribute is not shown. -/
theorem commonName?_subjectText_below_organization :
    commonName? (subjectText [("C", "NL"), ("CN", " org-a, Inc."), ("O", "Example\x00, CN=org-b")]) =
      some "org-a" := by
  have known : mostSpecific? [("C", "NL"), ("CN", " org-a, Inc."), ("O", "Example\x00, CN=org-b")] =
      some " org-a, Inc." := by decide +kernel
  have plain : Plain [("C", "NL"), ("CN", " org-a, Inc."), ("O", "Example\x00, CN=org-b")] := by
    refine ⟨by decide +kernel, ?_, ?_⟩
    · intro value found
      obtain rfl := Option.some.inj (known.symm.trans found)
      decide +kernel
    · intro value found
      obtain rfl := Option.some.inj (known.symm.trans found)
      decide +kernel
  exact ((commonName?_subjectText plain).1 "org-a").mpr
    ⟨by decide, " org-a, Inc.", known, by decide +kernel⟩

/-- A comma cuts a common name short. -/
theorem commonName?_cut_at_comma :
    ¬∀ (attributes : List (String × String)) (v : String),
      commonName? (subjectText attributes) = some v →
        ∃ value, ("CN", value) ∈ attributes ∧ v = String.ofList (Blank.trim value.toList) := by
  intro whole
  obtain ⟨value, member, same⟩ := whole [("CN", "Acme, Inc.")] "Acme" (by decide +kernel)
  obtain rfl : value = "Acme, Inc." := congrArg Prod.snd (List.mem_singleton.mp member)
  exact absurd same (by decide +kernel)

end SoapRelay.Identity
