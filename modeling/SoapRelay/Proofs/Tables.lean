import Mathlib.Data.List.Nodup
import SoapRelay.Toml.Document

/-!
# No key is given twice

In no table of a configuration that was read does a key stand twice, however deep the table lies and
whether a header, a dotted key or braces opened it. Every operation on a table keeps that, and a reader
only makes tables by these operations.
-/

namespace SoapRelay.Toml

/-- In no table of the value does a key stand twice. -/
inductive Value.Keyed : Value → Prop
  | text (s : String) : Keyed (.text s)
  | integer (n : Int64) : Keyed (.integer n)
  | boolean (b : Bool) : Keyed (.boolean b)
  | real (spelling : String) : Keyed (.real spelling)
  | moment (spelling : String) : Keyed (.moment spelling)
  | list {items : List Value} (each : ∀ v ∈ items, Keyed v) : Keyed (.list items)
  | table (opening : Opening) {t : Entries} (once : (t.map Prod.fst).Nodup) (each : ∀ e ∈ t, Keyed e.2) :
      Keyed (.table opening t)
  | tables {earlier : List Entries} {last : Entries} (once : ∀ t ∈ last :: earlier, (t.map Prod.fst).Nodup)
      (each : ∀ t ∈ last :: earlier, ∀ e ∈ t, Keyed e.2) : Keyed (.tables earlier last)

/-- No key stands twice in the table, nor in any table in it. -/
structure Entries.Keyed (t : Entries) : Prop where
  once : (t.map Prod.fst).Nodup
  each : ∀ e ∈ t, e.2.Keyed

namespace Value

theorem keyed_list {items : List Value} : (list items).Keyed ↔ ∀ v ∈ items, v.Keyed :=
  ⟨fun | .list each => each, .list⟩

theorem keyed_table {opening : Opening} {t : Entries} : (table opening t).Keyed ↔ t.Keyed :=
  ⟨fun | .table _ once each => ⟨once, each⟩, fun ⟨once, each⟩ => .table opening once each⟩

theorem keyed_tables {earlier : List Entries} {last : Entries} :
    (tables earlier last).Keyed ↔ last.Keyed ∧ ∀ t ∈ earlier, t.Keyed := by
  rw [← List.forall_mem_cons (p := Entries.Keyed)]
  exact ⟨fun | .tables once each => fun t member => ⟨once t member, each t member⟩,
    fun keyed => .tables (fun t member => (keyed t member).once) fun t member => (keyed t member).each⟩

end Value

/-! ### Tables -/

namespace Entries

variable {t t' : Entries} {key : String} {v : Value} {path : List String}

theorem Keyed.nil : Keyed [] := ⟨List.nodup_nil, nofun⟩

theorem get?_mem (found : t.get? key = some v) : (key, v) ∈ t := by
  obtain ⟨e, here, rfl⟩ := Option.map_eq_some_iff.mp found
  have same := List.find?_some here
  obtain rfl := of_decide_eq_true same
  exact List.mem_of_find?_eq_some here

theorem Keyed.get? (keyed : t.Keyed) (found : t.get? key = some v) : v.Keyed :=
  keyed.each _ (get?_mem found)

theorem get?_eq_none_iff : t.get? key = none ↔ key ∉ t.map Prod.fst := by
  simp only [get?, Option.map_eq_none_iff, List.find?_eq_none, decide_eq_true_iff, List.mem_map, not_exists,
    not_and]

theorem Keyed.append (keyed : t.Keyed) (new : t.get? key = none) (inner : v.Keyed) : Keyed (t ++ [(key, v)]) := by
  refine ⟨?_, fun e member => ?_⟩
  · rw [List.map_append, List.nodup_append]
    refine ⟨keyed.once, List.nodup_singleton key, fun a old b same => ?_⟩
    obtain rfl := List.mem_singleton.mp same
    rintro rfl
    exact get?_eq_none_iff.mp new old
  · rcases List.mem_append.mp member with old | same
    · exact keyed.each e old
    · obtain rfl := List.mem_singleton.mp same
      exact inner

theorem put_of_new (new : key ∉ t.map Prod.fst) : t.put key v = t ++ [(key, v)] := by
  induction t with
  | nil => rfl
  | cons e rest ih =>
    obtain ⟨other, later⟩ := not_or.mp (List.mem_cons.not.mp new)
    rw [put, if_neg (Ne.symm other), ih later]
    rfl

theorem keys_put_of_old (old : key ∈ t.map Prod.fst) : (t.put key v).map Prod.fst = t.map Prod.fst := by
  induction t with
  | nil => cases old
  | cons e rest ih =>
    rw [put]
    split
    · rename_i same
      rw [List.map_cons, List.map_cons, same]
    · rename_i other
      have later := (List.mem_cons.mp old).resolve_left (Ne.symm other)
      rw [List.map_cons, List.map_cons, ih later]

theorem mem_put {e : String × Value} (member : e ∈ t.put key v) : e ∈ t ∨ e = (key, v) := by
  induction t with
  | nil => exact .inr (List.mem_singleton.mp member)
  | cons first rest ih =>
    rw [put] at member
    split at member
    · rcases List.mem_cons.mp member with same | later
      · exact .inr same
      · exact .inl (List.mem_cons_of_mem _ later)
    · rcases List.mem_cons.mp member with same | later
      · exact .inl (same ▸ List.mem_cons_self)
      · exact (ih later).imp_left (List.mem_cons_of_mem _)

theorem Keyed.put (keyed : t.Keyed) (inner : v.Keyed) : (t.put key v).Keyed := by
  by_cases old : key ∈ t.map Prod.fst
  · refine ⟨(keys_put_of_old old).symm ▸ keyed.once, fun e member => ?_⟩
    rcases mem_put member with before | rfl
    · exact keyed.each e before
    · exact inner
  · rw [put_of_new old]
    exact keyed.append (get?_eq_none_iff.mpr old) inner

theorem Keyed.add? (keyed : t.Keyed) (inner : v.Keyed) (added : t.add? key v = some t') : t'.Keyed := by
  rw [Entries.add?] at added
  split at added
  · cases added
  · rename_i new
    obtain rfl := Option.some.inj added
    exact keyed.append (Option.not_isSome_iff_eq_none.mp new) inner

/-- A table stays keyed when one in it is changed to a keyed one. -/
theorem Keyed.change (keyed : t.Keyed) {changed? : Option Entries} {wrap : Entries → Value}
    (inner : ∀ changed, changed? = some changed → (wrap changed).Keyed)
    (put : (do return t.put key (wrap (← changed?))) = some t') : t'.Keyed := by
  obtain ⟨changed, made, same⟩ := Option.bind_eq_some_iff.mp put
  obtain rfl := Option.some.inj same
  exact keyed.put (inner changed made)

/-- A change below the keys of a header keeps the table keyed if it keeps the table there so. -/
theorem Keyed.within {change : Entries → Option Entries}
    (keeps : ∀ {t t' : Entries}, t.Keyed → change t = some t' → t'.Keyed) (keyed : t.Keyed)
    (changed : t.within change path = some t') : t'.Keyed := by
  induction path generalizing t t' with
  | nil => exact keeps keyed changed
  | cons key path ih =>
    rw [Entries.within] at changed
    split at changed
    · exact keyed.change (fun _ made => Value.keyed_table.mpr (ih .nil made)) changed
    · cases changed
    · rename_i opening inner _ found
      have inside := Value.keyed_table.mp (keyed.get? found)
      exact keyed.change (fun _ made => Value.keyed_table.mpr (ih inside made)) changed
    · rename_i earlier last found
      obtain ⟨inside, others⟩ := Value.keyed_tables.mp (keyed.get? found)
      exact keyed.change (fun _ made => Value.keyed_tables.mpr ⟨ih inside made, others⟩) changed
    · cases changed

theorem Keyed.addDotted? (inner : v.Keyed) (keyed : t.Keyed) (added : t.addDotted? key v path = some t') :
    t'.Keyed := by
  induction path generalizing t t' with
  | nil => exact keyed.add? inner added
  | cons first path ih =>
    rw [Entries.addDotted?] at added
    split at added
    · exact keyed.change (fun _ made => Value.keyed_table.mpr (ih .nil made)) added
    · rename_i below found
      have inside := Value.keyed_table.mp (keyed.get? found)
      exact keyed.change (fun _ made => Value.keyed_table.mpr (ih inside made)) added
    · rename_i below found
      have inside := Value.keyed_table.mp (keyed.get? found)
      split at added
      · cases added
      · exact keyed.change (fun _ made => Value.keyed_table.mpr (ih inside made)) added
    · rename_i earlier last found
      obtain ⟨inside, others⟩ := Value.keyed_tables.mp (keyed.get? found)
      split at added
      · cases added
      · exact keyed.change (fun _ made => Value.keyed_tables.mpr ⟨ih inside made, others⟩) added
    · cases added

theorem Keyed.open? (keyed : t.Keyed) (opened : t.open? path key = some t') : t'.Keyed := by
  refine keyed.within (fun {t t'} keyed changed => ?_) opened
  split at changed
  · obtain rfl := Option.some.inj changed
    exact keyed.put (Value.keyed_table.mpr .nil)
  · rename_i found
    obtain rfl := Option.some.inj changed
    exact keyed.put (Value.keyed_table.mpr (Value.keyed_table.mp (keyed.get? found)))
  · cases changed

theorem Keyed.openNext? (keyed : t.Keyed) (opened : t.openNext? path key = some t') : t'.Keyed := by
  refine keyed.within (fun {t t'} keyed changed => ?_) opened
  split at changed
  · obtain rfl := Option.some.inj changed
    exact keyed.put (Value.keyed_tables.mpr ⟨.nil, nofun⟩)
  · rename_i earlier last found
    obtain rfl := Option.some.inj changed
    obtain ⟨inside, others⟩ := Value.keyed_tables.mp (keyed.get? found)
    refine keyed.put (Value.keyed_tables.mpr ⟨.nil, fun t member => ?_⟩)
    rcases List.mem_append.mp member with before | same
    · exact others t before
    · exact List.mem_singleton.mp same ▸ inside
  · cases changed

end Entries

/-! ### Readers -/

/-- Whatever the reader reads has the property. -/
def Reader.Yields {α : Type} (p : α → Prop) (r : Reader α) : Prop :=
  ∀ cs a rest, r cs = some (a, rest) → p a

namespace Reader

variable {α β : Type} {p : α → Prop} {q : β → Prop} {r s : Reader α}

theorem yields_pure {a : α} (h : p a) : Yields p (pure a) := by
  rintro cs _ _ ⟨⟩
  exact h

theorem yields_failure : Yields p (failure : Reader α) := nofun

/-- What is read by two readers in a row has the property if it has it whatever the first one read. -/
theorem Yields.bind {f : α → Reader β} (first : Yields p r) (second : ∀ a, p a → Yields q (f a)) :
    Yields q (r >>= f) := by
  intro cs b rest read
  obtain ⟨⟨a, left⟩, begun, ended⟩ := Option.bind_eq_some_iff.mp read
  exact second a (first cs a left begun) left b rest ended

theorem yields_bind {f : α → Reader β} (second : ∀ a, Yields q (f a)) : Yields q (r >>= f) :=
  Yields.bind (p := fun _ => True) (fun _ _ _ _ => trivial) fun a _ => second a

theorem Yields.orElse (first : Yields p r) (second : Yields p s) : Yields p (r <|> s) := by
  intro cs a rest read
  have read : (r cs <|> s cs) = some (a, rest) := read
  cases one : r cs with
  | some taken =>
    rw [one] at read
    exact first cs a rest (one.trans read)
  | none =>
    rw [one] at read
    exact second cs a rest read

theorem yields_lift {made? : Option α} (h : ∀ a, made? = some a → p a) : Yields p (liftM made? : Reader α) := by
  intro cs a rest read
  obtain ⟨_, made, ⟨⟩⟩ := Option.bind_eq_some_iff.mp read
  exact h a made

theorem Yields.separated {separator : Reader Unit} (item : Yields p r) :
    Yields (∀ a ∈ ·, p a) (separated r separator) := by
  have go : ∀ n, Yields (∀ a ∈ ·, p a) (separated.go r separator n) := by
    intro n
    induction n with
    | zero => exact yields_failure
    | succ n ih =>
      refine item.bind fun first fits => yields_bind fun more => ?_
      cases more with
      | some _ => exact ih.bind fun later fit => yields_pure (List.forall_mem_cons.mpr ⟨fits, fit⟩)
      | none => exact yields_pure (List.forall_mem_singleton.mpr fits)
  intro cs
  exact go _ cs

end Reader

open Reader

variable {value : Reader Value}

theorem yields_pair (keyed : Yields Value.Keyed value) : Yields (·.value.Keyed) (pair value) :=
  yields_bind fun _ => yields_bind fun _ => yields_bind fun _ =>
    keyed.bind fun _ inner => yields_bind fun _ => yields_pure inner

theorem yields_items (keyed : Yields Value.Keyed value) : Yields (∀ v ∈ ·, v.Keyed) (items value) := by
  have go : ∀ n, Yields (∀ v ∈ ·, v.Keyed) (items.go value n) := by
    intro n
    induction n with
    | zero => exact yields_failure
    | succ n ih =>
      refine yields_bind fun _ => yields_bind fun closed => ?_
      cases closed with
      | some _ => exact yields_pure nofun
      | none =>
        refine keyed.bind fun v inner => yields_bind fun _ => yields_bind fun more => ?_
        cases more with
        | some _ => exact ih.bind fun later inners => yields_pure (List.forall_mem_cons.mpr ⟨inner, inners⟩)
        | none => exact yields_bind fun _ => yields_pure (List.forall_mem_singleton.mpr inner)
  intro cs
  exact go _ cs

theorem Entries.keyed_ofPairs? {pairs : List Pair} {t t' : Entries} (inner : ∀ p ∈ pairs, p.value.Keyed)
    (keyed : t.Keyed) (made : pairs.foldlM (fun t p => t.addDotted? p.key p.value p.path) t = some t') : t'.Keyed := by
  induction pairs generalizing t with
  | nil =>
    obtain rfl := Option.some.inj made
    exact keyed
  | cons p pairs ih =>
    obtain ⟨first, others⟩ := List.forall_mem_cons.mp inner
    rw [List.foldlM_cons] at made
    obtain ⟨next, added, rest⟩ := Option.bind_eq_some_iff.mp made
    exact ih others (keyed.addDotted? first added) rest

theorem yields_members (keyed : Yields Value.Keyed value) : Yields Entries.Keyed (members value) :=
  (yields_bind fun _ => yields_bind fun _ => yields_pure .nil).orElse <|
    (yields_pair keyed).separated.bind fun _ inner => yields_bind fun _ =>
      yields_lift fun _ made => Entries.keyed_ofPairs? inner .nil made

theorem yields_plain : Yields Value.Keyed plain := by
  refine yields_bind fun next => ?_
  split
  · exact yields_bind fun _ => yields_pure (.boolean true)
  · exact yields_bind fun _ => yields_pure (.boolean false)
  · exact yields_bind fun s => yields_pure (.text s)
  · exact yields_bind fun s => yields_pure (.text s)
  · exact (yields_bind fun s => yields_pure (.moment s)).orElse
      ((yields_bind fun s => yields_pure (.real s)).orElse (yields_bind fun n => yields_pure (.integer n)))

theorem yields_value (depth : Nat) : Yields Value.Keyed (Toml.value depth) := by
  induction depth with
  | zero => exact yields_plain
  | succ depth ih =>
    refine yields_bind fun next => ?_
    split
    · exact yields_bind fun _ => (yields_items ih).bind fun _ inner => yields_pure (.list inner)
    · exact yields_bind fun _ => (yields_members ih).bind fun _ inner => yields_pure (Value.keyed_table.mpr inner)
    · exact yields_plain

/-! ### Lines -/

/-- The value of the line, if it has one, is keyed. -/
def Line.Keyed (line : Line) : Prop :=
  ∀ p, line = .entry p → p.value.Keyed

theorem yields_lines : Yields (∀ line ∈ ·, Line.Keyed line) lines := by
  have opens : Yields Line.Keyed header :=
    (yields_bind fun _ => yields_bind fun _ => yields_bind fun _ => yields_bind fun _ => yields_pure nofun).orElse
      (yields_bind fun _ => yields_bind fun _ => yields_bind fun _ => yields_bind fun _ => yields_pure nofun)
  have go : ∀ n, Yields (∀ line ∈ ·, Line.Keyed line) (lines.go n) := by
    intro n
    induction n with
    | zero => exact yields_failure
    | succ n ih =>
      refine yields_bind fun _ => yields_bind fun next => ?_
      split
      · exact yields_pure nofun
      · exact opens.bind fun line fits => ih.bind fun later fit =>
          yields_pure (List.forall_mem_cons.mpr ⟨fits, fit⟩)
      · split
        · exact yields_bind fun _ => ih
        · refine (yields_pair (yields_value maxDepth)).bind fun p inner => yields_bind fun _ => ?_
          have fits : Line.Keyed (.entry p) := by
            rintro _ ⟨⟩
            exact inner
          exact ih.bind fun later fit => yields_pure (List.forall_mem_cons.mpr ⟨fits, fit⟩)
  intro cs
  exact go _ cs

/-- One line more keeps the tables keyed. -/
theorem Draft.keyed_add? {d d' : Draft} {line : Line} (fits : line.Keyed) (keyed : d.tables.Keyed)
    (added : d.add? line = some d') : d'.tables.Keyed := by
  cases line with
  | header path key =>
    obtain ⟨_, opened, same⟩ := Option.bind_eq_some_iff.mp added
    obtain rfl := Option.some.inj same
    exact keyed.open? opened
  | nextHeader path key =>
    obtain ⟨_, opened, same⟩ := Option.bind_eq_some_iff.mp added
    obtain rfl := Option.some.inj same
    exact keyed.openNext? opened
  | entry p =>
    obtain ⟨_, changed, same⟩ := Option.bind_eq_some_iff.mp added
    obtain rfl := Option.some.inj same
    exact keyed.within (fun keyed => keyed.addDotted? (fits p rfl)) changed

theorem Draft.keyed_add_lines {d d' : Draft} {lines : List Line} (fit : ∀ line ∈ lines, line.Keyed)
    (keyed : d.tables.Keyed) (added : lines.foldlM Draft.add? d = some d') : d'.tables.Keyed := by
  induction lines generalizing d with
  | nil =>
    obtain rfl := Option.some.inj added
    exact keyed
  | cons line lines ih =>
    obtain ⟨first, others⟩ := List.forall_mem_cons.mp fit
    rw [List.foldlM_cons] at added
    obtain ⟨next, one, rest⟩ := Option.bind_eq_some_iff.mp added
    exact ih others (Draft.keyed_add? first keyed one) rest

/-- No key is given twice in any table of a text that can be read. -/
theorem keyed_parse? {text : String} {t : Entries} (parsed : parse? text = some t) : t.Keyed := by
  obtain ⟨⟨lines, rest⟩, read, built⟩ := Option.bind_eq_some_iff.mp parsed
  obtain ⟨d, added, same⟩ := Option.bind_eq_some_iff.mp built
  obtain rfl := Option.some.inj same
  exact Draft.keyed_add_lines (yields_lines _ _ _ read) .nil added

end SoapRelay.Toml
