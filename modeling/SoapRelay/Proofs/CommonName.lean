import Mathlib.Data.Nat.Find
import SoapRelay.Proofs.Identity
import SoapRelay.Text.Pattern

/-!
# Where a common name is found

The search for a common name takes the leftmost `CN=` whose value does not break, with few characters before
many, as the pattern `CN=(.*?)(?:,|$)` does. Said by positions: the least `i` where `CN=` stands such that no
line feed stands between it and the next comma or the end. What is found there decides, blank or not.
-/

namespace SoapRelay

/-! ### Trimming -/

namespace Blank

/-- The text without the blanks at its ends. -/
structure Trims (text trimmed : List Char) : Prop where
  split : ∃ front back, text = front ++ trimmed ++ back ∧ (∀ c ∈ front, isBlank c) ∧ ∀ c ∈ back, isBlank c
  first : ∀ c ∈ trimmed.head?, isBlank c = false
  last : ∀ c ∈ trimmed.getLast?, isBlank c = false

theorem head?_dropWhile {c : Char} {cs : List Char} (first : c ∈ (cs.dropWhile isBlank).head?) : isBlank c = false := by
  have bare := List.head?_dropWhile_not isBlank cs
  rw [Option.mem_def.mp first] at bare
  exact bare

theorem dropWhile_of_head? {cs : List Char} (first : ∀ c ∈ cs.head?, isBlank c = false) : cs.dropWhile isBlank = cs := by
  cases cs with
  | nil => rfl
  | cons c cs => exact List.dropWhile_cons_of_neg (Bool.eq_false_iff.mp (first c rfl))

theorem trim_trims (text : List Char) : Trims text (trim text) := by
  have front := text.takeWhile_append_dropWhile (p := isBlank)
  have back := (text.dropWhile isBlank).reverse.takeWhile_append_dropWhile (p := isBlank)
  generalize split : (text.dropWhile isBlank).reverse.takeWhile isBlank = blanks at back
  have kept : text.dropWhile isBlank = trim text ++ blanks.reverse := by
    rw [trim, ← List.reverse_append, back, List.reverse_reverse]
  refine ⟨⟨text.takeWhile isBlank, blanks.reverse, ?_, fun c => List.mem_takeWhile_imp, ?_⟩, ?_, ?_⟩
  · rw [List.append_assoc, ← kept, front]
  · intro c member
    rw [List.mem_reverse, ← split] at member
    exact List.mem_takeWhile_imp member
  · intro c first
    have front : c ∈ (text.dropWhile isBlank).head? := by
      rw [kept, List.head?_append, Option.mem_def.mp first]
      rfl
    exact head?_dropWhile front
  · intro c last
    rw [trim, List.getLast?_reverse] at last
    exact head?_dropWhile last

theorem trims_iff {text trimmed : List Char} : Trims text trimmed ↔ trimmed = trim text := by
  constructor
  · rintro ⟨⟨front, back, rfl, blankFront, blankBack⟩, first, last⟩
    have backwards : ∀ c ∈ back.reverse, isBlank c := fun c member => blankBack c (List.mem_reverse.mp member)
    rw [trim, List.append_assoc, List.dropWhile_append_of_pos blankFront]
    cases trimmed with
    | nil =>
      have none : back.dropWhile isBlank = [] := List.dropWhile_eq_nil_iff.mpr blankBack
      rw [List.nil_append, none]
      rfl
    | cons c rest =>
      have stays : (c :: rest ++ back).dropWhile isBlank = c :: rest ++ back := dropWhile_of_head? first
      have turned : (c :: rest).reverse.dropWhile isBlank = (c :: rest).reverse := by
        apply dropWhile_of_head?
        rw [List.head?_reverse]
        exact last
      rw [stays, List.reverse_append, List.dropWhile_append_of_pos backwards, turned, List.reverse_reverse]
  · rintro rfl
    exact trim_trims text

theorem trim_eq_nil_iff {text : List Char} : trim text = [] ↔ ∀ c ∈ text, isBlank c := by
  constructor
  · intro none c member
    obtain ⟨⟨front, back, split, blankFront, blankBack⟩, _, _⟩ := trim_trims text
    rw [none, List.append_nil] at split
    rw [split, List.mem_append] at member
    exact member.elim (blankFront c) (blankBack c)
  · intro all
    rw [trim, List.dropWhile_eq_nil_iff.mpr all]
    rfl

end Blank

namespace Pattern

/-- What the group of a pattern holds in the preferred match at the front of a text. -/
def kept? (p : Pattern) (cs : List Char) : Option (Option (List Char)) :=
  (p.matchesAt cs).head?.map Match.group?

theorem kept?_char_nil (c : Char) (p : Pattern) : (seq (char c) p).kept? [] = none :=
  rfl

theorem kept?_char_cons (c d : Char) (p : Pattern) (cs : List Char) :
    (seq (char c) p).kept? (d :: cs) = if d = c then p.kept? cs else none := by
  have step : (seq (char c) p).matchesAt (d :: cs) =
      if d = c then (p.matchesAt cs).map (Match.andThen ⟨[d], cs, none⟩) else [] := by
    by_cases same : d = c
    · simp [matchesAt, char, same]
    · simp [matchesAt, char, same]
  rw [kept?, step]
  split
  · rw [kept?, List.head?_map, Option.map_map]
    congr 1
    funext n
    exact Option.or_none
  · rfl

theorem kept?_search? (p : Pattern) (c : Char) (cs : List Char) : (p.search? (c :: cs)).map Match.group? =
    (p.kept? (c :: cs)).or ((p.search? cs).map Match.group?) := by
  rw [search?, Option.map_or]
  rfl

end Pattern

namespace Identity

open Pattern

/-! ### The pattern -/

/-- A value ends at a comma, or at the end of the text. -/
def stop : Pattern := either (char ',') finish

def value : Pattern := seq (group (fewest (· ≠ '\n'))) stop

/-- `CN=(.*?)(?:,|$)` -/
def commonName : Pattern := seq (char 'C') (seq (char 'N') (seq (char '=') value))

theorem kept?_stop (cs : List Char) : stop.kept? cs = if cs.head?.all (· = ',') then some none else none := by
  cases cs with
  | nil => rfl
  | cons c cs =>
    by_cases comma : c = ','
    · simp [kept?, stop, matchesAt, char, comma]
    · simp [kept?, stop, matchesAt, char, comma]

/-- The value is what the first of the lengths to try takes that ends at a comma or the end. -/
theorem kept?_value (cs : List Char) : value.kept? cs =
    ((few (· ≠ '\n') cs).find? (·.rest.head?.all (· = ','))).map fun m => some m.taken := by
  have tries : (value.matchesAt cs).head? = (few (· ≠ '\n') cs).findSome? fun m =>
      ((stop.matchesAt m.rest).map (Match.andThen { m with group? := some m.taken })).head? := by
    show (((few (· ≠ '\n') cs).map _).flatMap _).head? = _
    rw [List.flatMap_map, List.head?_flatMap]
  rw [kept?, tries]
  induction few (· ≠ '\n') cs with
  | nil => rfl
  | cons m ms ih =>
    have ends := kept?_stop m.rest
    rw [kept?] at ends
    rw [List.findSome?_cons, List.find?_cons, List.head?_map]
    by_cases here : m.rest.head?.all (· = ',') = true
    · rw [if_pos here] at ends
      obtain ⟨n, found, bare⟩ := Option.map_eq_some_iff.mp ends
      rw [found, here]
      exact congrArg (fun kept => some (Option.or kept (some m.taken))) bare
    · rw [if_neg here] at ends
      rw [Option.map_eq_none_iff.mp ends, Bool.eq_false_iff.mpr here]
      exact ih

theorem find?_few (cs : List Char) :
    ((few (· ≠ '\n') cs).find? (·.rest.head?.all (· = ','))).map (·.taken) = value? cs := by
  induction cs with
  | nil => rfl
  | cons c cs ih =>
    rw [few, value?]
    by_cases comma : c = ','
    · simp [comma]
    · by_cases broken : c = '\n'
      · simp [broken]
      · rw [if_neg comma, if_neg broken, ← ih]
        simp [comma, broken, List.find?_map, Option.map_map, Function.comp_def, Match.andThen]

theorem kept?_commonName (cs : List Char) :
    commonName.kept? cs = if opening <+: cs then (value? (cs.drop 3)).map some else none := by
  have kept : ∀ rest, value.kept? rest = (value? rest).map some := by
    intro rest
    rw [kept?_value, ← find?_few, Option.map_map]
    rfl
  match cs with
  | [] => rfl
  | [a] => simp [commonName, kept?_char_cons, kept?_char_nil, opening, List.cons_prefix_cons]
  | [a, b] => simp [commonName, kept?_char_cons, kept?_char_nil, opening, List.cons_prefix_cons]
  | a :: b :: c :: rest =>
    have shape : opening <+: a :: b :: c :: rest ↔ a = 'C' ∧ b = 'N' ∧ c = '=' := by
      simp [opening, List.cons_prefix_cons, eq_comm]
    simp only [commonName, kept?_char_cons, kept, shape, List.drop_succ_cons, List.drop_zero, ite_and]

/-- The search finds what the pattern finds. -/
theorem search?_commonName (cs : List Char) : (commonName.search? cs).map Match.group? = (firstValue? cs).map some := by
  induction cs with
  | nil => rfl
  | cons c cs ih =>
    rw [kept?_search?, kept?_commonName, ih]
    split
    · rename_i first
      obtain ⟨tail, split⟩ := first
      have rest : cs = 'N' :: '=' :: tail := (List.cons.inj split).2.symm
      rw [← split, firstValue?_opening, Option.map_or, rest]
      rfl
    · rename_i other
      rw [firstValue?_cons other]
      rfl

/-! ### Where it finds it -/

/-- What stands behind three characters at `i`, up to the next comma or the end. -/
def valueAt (cs : List Char) (i : Nat) : List Char :=
  (cs.drop (i + 3)).takeWhile (· ≠ ',')

/-- `CN=` stands there, and its value does not break. -/
structure OpensValue (cs : List Char) (i : Nat) : Prop where
  opening : opening <+: cs.drop i
  unbroken : '\n' ∉ valueAt cs i

/-- The leftmost place where a value opens. -/
structure Leftmost (cs : List Char) (i : Nat) : Prop where
  opens : OpensValue cs i
  first : ∀ j < i, ¬ OpensValue cs j

theorem value?_of_broken {cs : List Char} (h : '\n' ∈ cs.takeWhile (· ≠ ',')) : value? cs = none := by
  induction cs with
  | nil => cases h
  | cons c rest ih =>
    by_cases comma : c = ','
    · simp [comma] at h
    · rw [List.takeWhile_cons_of_pos (by simpa using comma)] at h
      rw [value?, if_neg comma]
      split
      · rfl
      · rename_i whole
        rcases List.mem_cons.mp h with here | later
        · exact absurd here.symm whole
        · rw [ih later]
          rfl

theorem opensValue_cons {c : Char} {cs : List Char} {i : Nat} : OpensValue (c :: cs) (i + 1) ↔ OpensValue cs i :=
  ⟨fun ⟨opening, unbroken⟩ => ⟨opening, unbroken⟩, fun ⟨opening, unbroken⟩ => ⟨opening, unbroken⟩⟩

theorem firstValue?_of_opens {c : Char} {cs : List Char} (opens : OpensValue (c :: cs) 0) :
    firstValue? (c :: cs) = some (valueAt (c :: cs) 0) := by
  obtain ⟨⟨tail, split⟩, unbroken⟩ := opens
  have split : opening ++ tail = c :: cs := split
  obtain rfl : cs = 'N' :: '=' :: tail := (List.cons.inj split).2.symm
  have unbroken : '\n' ∉ tail.takeWhile (· ≠ ',') := unbroken
  rw [← split, firstValue?_opening, value?_of_unbroken unbroken]
  rfl

theorem firstValue?_of_not_opens {c : Char} {cs : List Char} (closed : ¬ OpensValue (c :: cs) 0) :
    firstValue? (c :: cs) = firstValue? cs := by
  by_cases first : opening <+: c :: cs
  · have broken : '\n' ∈ valueAt (c :: cs) 0 := by
      by_contra unbroken
      exact closed ⟨first, unbroken⟩
    obtain ⟨tail, split⟩ := first
    obtain rfl : cs = 'N' :: '=' :: tail := (List.cons.inj split).2.symm
    have broken : '\n' ∈ tail.takeWhile (· ≠ ',') := broken
    rw [← split, firstValue?_opening, value?_of_broken broken]
    rfl
  · exact firstValue?_cons first

theorem firstValue?_eq_none_iff {cs : List Char} : firstValue? cs = none ↔ ∀ i, ¬ OpensValue cs i := by
  induction cs with
  | nil =>
    refine ⟨fun _ i opens => ?_, fun _ => rfl⟩
    have opening := opens.opening
    simp [Identity.opening] at opening
  | cons c cs ih =>
    by_cases here : OpensValue (c :: cs) 0
    · rw [firstValue?_of_opens here]
      exact ⟨fun none => absurd none (Option.some_ne_none _), fun none => absurd here (none 0)⟩
    · rw [firstValue?_of_not_opens here, ih]
      refine ⟨fun none i => ?_, fun none i opens => none (i + 1) (opensValue_cons.mpr opens)⟩
      cases i with
      | zero => exact here
      | succ i => exact fun opens => none i (opensValue_cons.mp opens)

theorem firstValue?_of_leftmost {cs : List Char} {i : Nat} (leftmost : Leftmost cs i) :
    firstValue? cs = some (valueAt cs i) := by
  induction cs generalizing i with
  | nil =>
    have opening := leftmost.opens.opening
    simp [Identity.opening] at opening
  | cons c cs ih =>
    cases i with
    | zero => exact firstValue?_of_opens leftmost.opens
    | succ i =>
      rw [firstValue?_of_not_opens (leftmost.first 0 (Nat.succ_pos i))]
      refine ih ⟨opensValue_cons.mp leftmost.opens, fun j before opens => ?_⟩
      exact leftmost.first (j + 1) (Nat.succ_lt_succ before) (opensValue_cons.mpr opens)

theorem firstValue?_eq_some_iff {cs value : List Char} :
    firstValue? cs = some value ↔ ∃ i, Leftmost cs i ∧ valueAt cs i = value := by
  constructor
  · intro found
    have somewhere : ∃ i, OpensValue cs i := by
      by_contra nowhere
      rw [firstValue?_eq_none_iff.mpr (not_exists.mp nowhere)] at found
      cases found
    classical
    have leftmost : Leftmost cs (Nat.find somewhere) :=
      ⟨Nat.find_spec somewhere, fun _ before => Nat.find_min somewhere before⟩
    rw [firstValue?_of_leftmost leftmost] at found
    exact ⟨_, leftmost, Option.some.inj found⟩
  · rintro ⟨i, leftmost, rfl⟩
    exact firstValue?_of_leftmost leftmost

/-- What the search finds, by the value that it takes. -/
theorem commonName?_of_firstValue? (subject : String) : commonName? subject =
    (firstValue? subject.toList).bind fun value =>
      if Blank.trim value = [] then none else some (String.ofList (Blank.trim value)) := by
  rw [commonName?]
  cases firstValue? subject.toList with
  | none => rfl
  | some value =>
    dsimp only
    split
    · rename_i blank
      rw [Option.bind_some, if_pos blank]
    · rename_i named
      rw [Option.bind_some, if_neg named]

/-- The leftmost value decides: the common name is that value without the blanks at its ends, and there is
none if no value opens or the leftmost one is blank, whatever comes later. That is what the pattern finds. -/
theorem commonName?_is_leftmost (subject : String) :
    (∀ name, commonName? subject = some name ↔
      name ≠ "" ∧ ∃ i, Leftmost subject.toList i ∧ Blank.Trims (valueAt subject.toList i) name.toList) ∧
    (commonName? subject = none ↔
      (∀ i, ¬ OpensValue subject.toList i) ∨
        ∃ i, Leftmost subject.toList i ∧ ∀ c ∈ valueAt subject.toList i, Blank.isBlank c) ∧
    commonName? subject = ((commonName.search? subject.toList).bind Match.group?).bind fun value =>
      if Blank.trim value = [] then none else some (String.ofList (Blank.trim value)) := by
  refine ⟨fun name => ?_, ?_, ?_⟩
  · rw [commonName?_eq_some_iff]
    refine and_congr_right fun _ => ⟨?_, ?_⟩
    · rintro ⟨value, found, rfl⟩
      obtain ⟨i, leftmost, rfl⟩ := firstValue?_eq_some_iff.mp found
      exact ⟨i, leftmost, Blank.trims_iff.mpr String.toList_ofList⟩
    · rintro ⟨i, leftmost, trims⟩
      refine ⟨_, firstValue?_of_leftmost leftmost, ?_⟩
      rw [← Blank.trims_iff.mp trims, String.ofList_toList]
  · rw [commonName?_of_firstValue?]
    constructor
    · intro none
      cases found : firstValue? subject.toList with
      | none => exact .inl (firstValue?_eq_none_iff.mp found)
      | some value =>
        obtain ⟨i, leftmost, rfl⟩ := firstValue?_eq_some_iff.mp found
        rw [found, Option.bind_some] at none
        refine .inr ⟨i, leftmost, Blank.trim_eq_nil_iff.mp ?_⟩
        by_contra named
        rw [if_neg named] at none
        cases none
    · rintro (nowhere | ⟨i, leftmost, blank⟩)
      · rw [firstValue?_eq_none_iff.mpr nowhere]
        rfl
      · rw [firstValue?_of_leftmost leftmost, Option.bind_some, if_pos (Blank.trim_eq_nil_iff.mpr blank)]
  · have same : (commonName.search? subject.toList).bind Match.group? = firstValue? subject.toList := by
      have found := congrArg Option.join (search?_commonName subject.toList)
      rw [← Option.bind_id_eq_join, ← Option.bind_id_eq_join, Option.bind_map, Option.bind_map] at found
      exact found.trans (Option.bind_fun_some _)
    rw [same, commonName?_of_firstValue?]

/-- The outer value breaks, the inner one does not; and a blank value hides the one behind it. -/
example : commonName? "CN=a\nCN= b , CN=c" = some "b" ∧ commonName? "CN= ,CN=b" = none := by decide +kernel

end Identity

end SoapRelay
