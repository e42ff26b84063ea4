import Mathlib.Data.List.Basic
import Mathlib.Data.List.Nodup
import SoapRelay.Registry.Basic

/-!
# The entries of a registry

The shards of a registry are one list of entries as far as anyone can tell. Each operation is
described by what it does to that list, to the endings and to the next serial; the main statement is
that a registry stays valid.
-/

namespace SoapRelay

theorem lookup_eq_some_iff {α β : Type} [BEq α] [LawfulBEq α] {pairs : List (α × β)}
    (keys : (pairs.map (·.1)).Nodup) {key : α} {value : β} :
    (pairs.find? (·.1 == key)).map (·.2) = some value ↔ (key, value) ∈ pairs := by
  constructor
  · intro h
    obtain ⟨⟨name, _⟩, found, rfl⟩ := Option.map_eq_some_iff.mp h
    obtain rfl : name = key := by simpa using List.find?_some found
    exact List.mem_of_find?_eq_some found
  · intro member
    cases found : pairs.find? (·.1 == key) with
    | none =>
      have missing := List.find?_eq_none.mp found _ member
      simp at missing
    | some pair =>
      have named : pair.1 = key := by simpa using List.find?_some found
      rw [List.inj_on_of_nodup_map keys (List.mem_of_find?_eq_some found) member named]
      rfl

namespace Registry

variable {r : Registry} {id : String} {p : PendingCall} {now : Nat}

def entries (r : Registry) : List (String × PendingCall) :=
  r.shards.flatMap Table.entries

/-- Every entry stands in the shard of its id, and no other entry has that id. -/
structure Shaped (r : Registry) : Prop where
  sharded : 0 < r.shards.length
  placed : ∀ i t, r.shards[i]? = some t → ∀ e ∈ t.entries, r.shardIndex e.1 = i
  ids : (r.entries.map (·.1)).Nodup

/-- The registry with some of its entries only. -/
def retain (r : Registry) (stays : String × PendingCall → Bool) : Registry :=
  { r with shards := r.shards.map fun t => ⟨t.entries.filter stays⟩ }

theorem entries_retain (r : Registry) (stays : String × PendingCall → Bool) :
    (r.retain stays).entries = r.entries.filter stays := by
  simp only [entries, retain, List.flatMap_map, List.filter_flatMap]

theorem Shaped.index_lt (shaped : r.Shaped) (id : String) : r.shardIndex id < r.shards.length :=
  Nat.mod_lt _ shaped.sharded

theorem Shaped.shard_eq (shaped : r.Shaped) (id : String) :
    r.shards[r.shardIndex id]? = some (r.shard id) := by
  rw [shard, List.getD_eq_getElem?_getD, List.getElem?_eq_getElem (shaped.index_lt id)]
  rfl

theorem Shaped.mem_shard (shaped : r.Shaped) {e : String × PendingCall} (h : e ∈ r.entries) :
    e ∈ (r.shard e.1).entries := by
  obtain ⟨t, member, inside⟩ := List.mem_flatMap.mp h
  obtain ⟨i, at_⟩ := List.mem_iff_getElem?.mp member
  have home := shaped.shard_eq e.1
  rw [shaped.placed i t at_ e inside, at_] at home
  exact Option.some.inj home ▸ inside

theorem Shaped.mem_entries_of_shard (shaped : r.Shaped) {e : String × PendingCall}
    (h : e ∈ (r.shard id).entries) : e ∈ r.entries :=
  List.mem_flatMap.mpr ⟨_, List.mem_of_getElem? (shaped.shard_eq id), h⟩

theorem Shaped.eq_of_id (shaped : r.Shaped) {e f : String × PendingCall} (he : e ∈ r.entries)
    (hf : f ∈ r.entries) (same : e.1 = f.1) : e = f :=
  List.inj_on_of_nodup_map shaped.ids he hf same

theorem find?_eq_some_iff (shaped : r.Shaped) : r.find? id = some p ↔ (id, p) ∈ r.entries := by
  have within : ((r.shard id).entries.map (·.1)).Nodup := by
    have member := List.mem_of_getElem? (shaped.shard_eq id)
    have part := List.sublist_flatten_of_mem (List.mem_map_of_mem member (f := Table.entries))
    rw [← List.flatMap_def] at part
    exact (part.map _).nodup shaped.ids
  rw [find?, Table.get?, lookup_eq_some_iff within]
  exact ⟨shaped.mem_entries_of_shard, shaped.mem_shard⟩

theorem find?_eq_none_iff (shaped : r.Shaped) : r.find? id = none ↔ ∀ p, (id, p) ∉ r.entries := by
  rw [Option.eq_none_iff_forall_ne_some]
  constructor
  · intro h p member
    exact h p ((find?_eq_some_iff shaped).mpr member)
  · intro h p found
    exact h p ((find?_eq_some_iff shaped).mp found)

theorem Shaped.retain (shaped : r.Shaped) (stays : String × PendingCall → Bool) :
    (r.retain stays).Shaped := by
  refine ⟨?_, ?_, ?_⟩
  · rw [Registry.retain, List.length_map]
    exact shaped.sharded
  · intro i t at_ e member
    obtain ⟨whole, before, rfl⟩ := Option.map_eq_some_iff.mp (List.getElem?_map.symm.trans at_)
    have home := shaped.placed i whole before e (List.mem_filter.mp member).1
    rw [shardIndex, Registry.retain, List.length_map]
    exact home
  · rw [entries_retain]
    exact (List.filter_sublist.map _).nodup shaped.ids

/-- Only the shard of an id can hold an entry for it. -/
theorem remove_eq_retain (shaped : r.Shaped) (id : String) : r.remove id = r.retain (·.1 != id) := by
  have shards : r.shards.set (r.shardIndex id) ((r.shard id).erase id) =
      r.shards.map fun t => ⟨t.entries.filter (·.1 != id)⟩ := by
    apply List.ext_getElem?
    intro i
    rw [List.getElem?_set, List.getElem?_map]
    split
    · rename_i same
      subst same
      rw [if_pos (shaped.index_lt id), shaped.shard_eq id]
      rfl
    · rename_i other
      cases at_ : r.shards[i]? with
      | none => rfl
      | some t =>
        have absent : ∀ e ∈ t.entries, (e.1 != id) = true := by
          intro e member
          apply bne_iff_ne.mpr
          intro same
          exact other (same ▸ shaped.placed i t at_ e member)
        rw [Option.map_some, List.filter_eq_self.mpr absent]
  rw [remove, setShard, shards, retain]

/-! ### Valid registries -/

/-- Serials tell registrations apart, and a call that is pending has no ending. -/
structure Valid (r : Registry) : Prop extends Shaped r where
  serials : (r.entries.map (·.2.serial)).Nodup
  issued : ∀ e ∈ r.entries, e.2.serial < r.nextSerial
  left : ∀ f ∈ r.endings, f.1 < r.nextSerial
  once : (r.endings.map (·.1)).Nodup
  apart : ∀ e ∈ r.entries, ∀ f ∈ r.endings, e.2.serial ≠ f.1

theorem Shaped.of_eq {r' : Registry} (shaped : r.Shaped) (hash : r'.hash = r.hash)
    (shards : r'.shards = r.shards) : r'.Shaped := by
  cases r
  cases r'
  cases hash
  cases shards
  exact ⟨shaped.sharded, shaped.placed, shaped.ids⟩

theorem Valid.eq_of_serial (valid : r.Valid) {e f : String × PendingCall} (he : e ∈ r.entries)
    (hf : f ∈ r.entries) (same : e.2.serial = f.2.serial) : e = f :=
  List.inj_on_of_nodup_map valid.serials he hf same

theorem entries_create (shards : Nat) (hash : String → UInt64) : (create shards hash).entries = [] := by
  simp [entries, create, Table.empty]

theorem create_valid (shards : Nat) (hash : String → UInt64) : (create shards hash).Valid := by
  have empty := entries_create shards hash
  refine ⟨⟨?_, ?_, ?_⟩, ?_, ?_, ?_, ?_, ?_⟩
  · rw [create, List.length_replicate]
    omega
  · intro i t at_ e member
    obtain rfl := List.eq_of_mem_replicate (List.mem_of_getElem? at_)
    cases member
  · rw [empty]
    exact List.nodup_nil
  · rw [empty]
    exact List.nodup_nil
  · rw [empty]
    intro e member
    cases member
  · intro f member
    cases member
  · exact List.nodup_nil
  · intro e _ f member
    cases member

/-- Some entries leave a registry, endings are left for some of them, and some endings that were
left before are taken. -/
structure Sheds (r r' : Registry) (stays : String × PendingCall → Bool) (new : List (Nat × Ending))
    (kept : Nat × Ending → Bool) : Prop where
  hash : r'.hash = r.hash
  shards : r'.shards = (r.retain stays).shards
  serial : r.nextSerial ≤ r'.nextSerial
  endings : r'.endings = new ++ r.endings.filter kept
  ended : ∀ f ∈ new, ∃ e ∈ r.entries, stays e = false ∧ e.2.serial = f.1
  distinct : (new.map (·.1)).Nodup

namespace Sheds

variable {r' : Registry} {stays : String × PendingCall → Bool} {new : List (Nat × Ending)}
  {kept : Nat × Ending → Bool}

theorem entries_eq (sheds : r.Sheds r' stays new kept) : r'.entries = r.entries.filter stays := by
  rw [← entries_retain, entries, entries, sheds.shards]

theorem mem_entries (sheds : r.Sheds r' stays new kept) {e : String × PendingCall} :
    e ∈ r'.entries ↔ e ∈ r.entries ∧ stays e := by
  rw [sheds.entries_eq, List.mem_filter]

theorem mem_endings (sheds : r.Sheds r' stays new kept) {f : Nat × Ending} :
    f ∈ r'.endings ↔ f ∈ new ∨ f ∈ r.endings ∧ kept f := by
  rw [sheds.endings, List.mem_append, List.mem_filter]

theorem left_before (sheds : r.Sheds r' stays [] kept) {f : Nat × Ending} (member : f ∈ r'.endings) :
    f ∈ r.endings := by
  rcases sheds.mem_endings.mp member with new | ⟨old, _⟩
  · cases new
  · exact old

theorem valid (sheds : r.Sheds r' stays new kept) (before : r.Valid) : r'.Valid := by
  have part : r'.entries.Sublist r.entries := sheds.entries_eq ▸ List.filter_sublist
  refine ⟨(before.retain stays).of_eq sheds.hash sheds.shards, ?_, ?_, ?_, ?_, ?_⟩
  · exact (part.map _).nodup before.serials
  · intro e member
    have issued := before.issued e (part.subset member)
    have later := sheds.serial
    omega
  · intro f member
    have later := sheds.serial
    rcases sheds.mem_endings.mp member with added | ⟨old, _⟩
    · obtain ⟨e, pending, _, same⟩ := sheds.ended f added
      have issued := before.issued e pending
      omega
    · have issued := before.left f old
      omega
  · rw [sheds.endings, List.map_append, List.nodup_append]
    refine ⟨sheds.distinct, (List.filter_sublist.map _).nodup before.once, ?_⟩
    intro n added m old same
    obtain ⟨f, inNew, rfl⟩ := List.mem_map.mp added
    obtain ⟨g, inOld, rfl⟩ := List.mem_map.mp old
    obtain ⟨e, pending, _, serial⟩ := sheds.ended f inNew
    exact before.apart e pending g (List.mem_filter.mp inOld).1 (serial.trans same)
  · intro e member f ending same
    obtain ⟨pending, stay⟩ := sheds.mem_entries.mp member
    rcases sheds.mem_endings.mp ending with added | ⟨old, _⟩
    · obtain ⟨g, other, gone, serial⟩ := sheds.ended f added
      obtain rfl := before.eq_of_serial pending other (same.trans serial.symm)
      rw [stay] at gone
      cases gone
    · exact before.apart e pending f old same

end Sheds

/-! ### Operations -/

def every {α : Type} : α → Bool := fun _ => true

theorem filter_every {α : Type} (xs : List α) : xs.filter every = xs :=
  List.filter_eq_self.mpr fun _ _ => rfl

theorem retain_every (r : Registry) : r.retain every = r := by
  simp only [retain, filter_every, List.map_id']

/-- Nothing but counters and the next serial changes. -/
theorem Sheds.nothing {r' : Registry} (hash : r'.hash = r.hash) (shards : r'.shards = r.shards)
    (serial : r.nextSerial ≤ r'.nextSerial) (endings : r'.endings = r.endings) :
    r.Sheds r' every [] every := by
  refine ⟨hash, ?_, serial, ?_, ?_, List.nodup_nil⟩
  · rw [retain_every, shards]
  · rw [endings, List.nil_append]
    exact (filter_every _).symm
  · intro f member
    cases member

/-- The call under an id leaves, with or without an ending for its caller. -/
theorem Sheds.one {r' : Registry} (endings : List Ending) (shaped : r.Shaped) (pending : (id, p) ∈ r.entries)
    (few : endings.length ≤ 1) (hash : r'.hash = r.hash) (shards : r'.shards = (r.remove id).shards)
    (serial : r'.nextSerial = r.nextSerial)
    (left : r'.endings = endings.map (fun e => (p.serial, e)) ++ r.endings) :
    r.Sheds r' (·.1 != id) (endings.map fun e => (p.serial, e)) every := by
  refine ⟨hash, ?_, (Nat.le_of_eq serial.symm), ?_, ?_, ?_⟩
  · rw [shards, remove_eq_retain shaped]
  · rw [left]
    rw [filter_every]
  · intro f member
    obtain ⟨ending, _, rfl⟩ := List.mem_map.mp member
    exact ⟨_, pending, bne_self_eq_false _, rfl⟩
  · rcases endings with _ | ⟨ending, _ | ⟨_, _⟩⟩
    · exact List.nodup_nil
    · exact List.nodup_singleton _
    · simp at few

/-- A new call comes in under the next serial. -/
structure Enters (r r' : Registry) (e : String × PendingCall) : Prop where
  shaped : r'.Shaped
  entries : r'.entries.Perm (e :: r.entries)
  endings : r'.endings = r.endings
  fresh : e.2.serial = r.nextSerial
  serial : r'.nextSerial = r.nextSerial + 1

namespace Enters

variable {r' : Registry} {e : String × PendingCall}

theorem mem_entries (enters : r.Enters r' e) {f : String × PendingCall} :
    f ∈ r'.entries ↔ f = e ∨ f ∈ r.entries := by
  rw [enters.entries.mem_iff, List.mem_cons]

theorem valid (enters : r.Enters r' e) (before : r.Valid) : r'.Valid := by
  have serial := enters.serial
  refine ⟨enters.shaped, ?_, ?_, ?_, ?_, ?_⟩
  · rw [(enters.entries.map _).nodup_iff, List.map_cons, List.nodup_cons]
    refine ⟨?_, before.serials⟩
    intro member
    obtain ⟨f, pending, same⟩ := List.mem_map.mp member
    have issued := before.issued f pending
    have fresh := enters.fresh
    omega
  · intro f member
    rcases enters.mem_entries.mp member with rfl | pending
    · have fresh := enters.fresh
      omega
    · have issued := before.issued f pending
      omega
  · intro f member
    rw [enters.endings] at member
    have issued := before.left f member
    omega
  · rw [enters.endings]
    exact before.once
  · intro f member g ending same
    rw [enters.endings] at ending
    rcases enters.mem_entries.mp member with rfl | pending
    · have issued := before.left g ending
      have fresh := enters.fresh
      omega
    · exact before.apart f pending g ending same

end Enters

theorem put_eq_cons {t : Table PendingCall} (absent : ∀ e ∈ t.entries, e.1 ≠ id) :
    (t.put id p).entries = (id, p) :: t.entries := by
  have whole : t.entries.filter (·.1 != id) = t.entries :=
    List.filter_eq_self.mpr fun e member => bne_iff_ne.mpr (absent e member)
  rw [Table.put, Table.erase, whole]

theorem entries_put (shaped : r.Shaped) (absent : ∀ p, (id, p) ∉ r.entries) (p : PendingCall) :
    (r.setShard id ((r.shard id).put id p)).entries.Perm ((id, p) :: r.entries) := by
  have inside := shaped.index_lt id
  have here : r.shards[r.shardIndex id] = r.shard id :=
    Option.some.inj ((List.getElem?_eq_getElem inside).symm.trans (shaped.shard_eq id))
  have whole : r.entries = (r.shards.take (r.shardIndex id)).flatMap Table.entries ++
      ((r.shard id).entries ++ (r.shards.drop (r.shardIndex id + 1)).flatMap Table.entries) := by
    rw [← here, ← List.flatMap_cons, ← List.flatMap_append, List.getElem_cons_drop, List.take_append_drop]
    rfl
  have fresh : ∀ e ∈ (r.shard id).entries, e.1 ≠ id := by
    rintro ⟨name, q⟩ member rfl
    exact absent q (shaped.mem_entries_of_shard member)
  rw [entries, setShard, List.set_eq_take_append_cons_drop, if_pos inside, List.flatMap_append,
    List.flatMap_cons, put_eq_cons fresh, List.cons_append, whole]
  exact List.perm_middle

theorem setShard_shaped (shaped : r.Shaped) (absent : ∀ p, (id, p) ∉ r.entries) (p : PendingCall) :
    (r.setShard id ((r.shard id).put id p)).Shaped := by
  refine ⟨?_, ?_, ?_⟩
  · rw [setShard, List.length_set]
    exact shaped.sharded
  · intro i t at_ e member
    have length : (r.setShard id ((r.shard id).put id p)).shards.length = r.shards.length := List.length_set
    rw [shardIndex, length]
    rw [setShard, List.getElem?_set] at at_
    split at at_
    · rename_i same
      subst same
      rw [if_pos (shaped.index_lt id)] at at_
      obtain rfl := Option.some.inj at_
      rcases List.mem_cons.mp member with rfl | old
      · rfl
      · exact shaped.placed _ _ (shaped.shard_eq id) e (List.mem_filter.mp old).1
    · exact shaped.placed i t at_ e member
  · rw [((entries_put shaped absent p).map _).nodup_iff, List.map_cons, List.nodup_cons]
    refine ⟨?_, shaped.ids⟩
    intro member
    obtain ⟨⟨name, q⟩, pending, rfl⟩ := List.mem_map.mp member
    exact absent q pending

/-- An id that is pending is refused. -/
theorem register_cases (shaped : r.Shaped) (now : Nat) (id : CallId) (deadline : Nat) :
    (∃ p, (id.text, p) ∈ r.entries ∧ (r.register now id deadline).1 = none ∧
        r.Sheds (r.register now id deadline).2 every [] every) ∨
      (∀ p, (id.text, p) ∉ r.entries) ∧
        (r.register now id deadline).1 = some ⟨id.text, r.nextSerial, deadline⟩ ∧
        r.Enters (r.register now id deadline).2 (id.text, ⟨r.nextSerial, now, deadline⟩) := by
  have same : ({ r with nextSerial := r.nextSerial + 1 } : Registry).contains id.text = (r.find? id.text).isSome :=
    rfl
  cases found : r.find? id.text with
  | some p =>
    rw [found, Option.isSome_some] at same
    refine Or.inl ⟨p, (find?_eq_some_iff shaped).mp found, ?_, ?_⟩
    · rw [register, same]
      rfl
    · rw [register, same]
      exact .nothing rfl rfl (Nat.le_succ _) rfl
  | none =>
    rw [found, Option.isSome_none] at same
    have absent := (find?_eq_none_iff shaped).mp found
    refine Or.inr ⟨absent, ?_, ?_⟩
    · rw [register, same]
      rfl
    · rw [register, same]
      exact ⟨(setShard_shaped shaped absent _).of_eq rfl rfl, entries_put shaped absent _, rfl, rfl, rfl⟩

theorem resolve_cases (shaped : r.Shaped) (now : Nat) (id reply : String) :
    (∃ p, (id, p) ∈ r.entries ∧ (r.resolve now id reply).1 = true ∧
        r.Sheds (r.resolve now id reply).2 (·.1 != id) [(p.serial, .reply reply)] every) ∨
      (∀ p, (id, p) ∉ r.entries) ∧ (r.resolve now id reply).1 = false ∧
        r.Sheds (r.resolve now id reply).2 every [] every := by
  cases found : r.find? id with
  | some p =>
    have pending := (find?_eq_some_iff shaped).mp found
    refine Or.inl ⟨p, pending, by rw [resolve, found], ?_⟩
    rw [resolve, found]
    exact .one [.reply reply] shaped pending (Nat.le_refl 1) rfl rfl rfl rfl
  | none =>
    refine Or.inr ⟨(find?_eq_none_iff shaped).mp found, by rw [resolve, found], ?_⟩
    rw [resolve, found]
    exact .nothing rfl rfl (Nat.le_refl _) rfl

theorem cancel_cases (shaped : r.Shaped) (id : String) :
    (∃ p, (id, p) ∈ r.entries ∧ (r.cancel id).1 = true ∧
        r.Sheds (r.cancel id).2 (·.1 != id) [(p.serial, .cancelled)] every) ∨
      (∀ p, (id, p) ∉ r.entries) ∧ (r.cancel id).1 = false ∧ (r.cancel id).2 = r := by
  cases found : r.find? id with
  | some p =>
    have pending := (find?_eq_some_iff shaped).mp found
    refine Or.inl ⟨p, pending, by rw [cancel, found], ?_⟩
    rw [cancel, found]
    exact .one [.cancelled] shaped pending (Nat.le_refl 1) rfl rfl rfl rfl
  | none =>
    exact Or.inr ⟨(find?_eq_none_iff shaped).mp found, by rw [cancel, found], by rw [cancel, found]⟩

theorem expired_eq (r : Registry) (now : Nat) :
    r.expired now = (r.entries.map (·.2)).filter (·.deadline ≤ now) := by
  simp only [expired, entries, List.map_flatMap, List.filter_flatMap]

def early (now : Nat) (e : String × PendingCall) : Bool :=
  !decide (e.2.deadline ≤ now)

theorem sweep_sheds (valid : r.Valid) (now : Nat) :
    r.Sheds (r.sweep now).2 (early now) ((r.expired now).map fun p => (p.serial, .timedOut)) every := by
  refine ⟨rfl, rfl, (Nat.le_refl _), ?_, ?_, ?_⟩
  · show _ ++ r.endings = _ ++ r.endings.filter every
    rw [filter_every]
  · intro f member
    obtain ⟨p, expired, rfl⟩ := List.mem_map.mp member
    rw [expired_eq] at expired
    obtain ⟨inside, due⟩ := List.mem_filter.mp expired
    obtain ⟨e, pending, rfl⟩ := List.mem_map.mp inside
    refine ⟨e, pending, ?_, rfl⟩
    rw [early, due]
    rfl
  · have serials : ((r.entries.map (·.2)).map PendingCall.serial).Nodup := by
      rw [List.map_map]
      exact valid.serials
    rw [expired_eq, List.map_map]
    exact (List.filter_sublist.map _).nodup serials

theorem owns_iff (shaped : r.Shaped) {t : Ticket} :
    r.owns t = true ↔ ∃ p, (t.id, p) ∈ r.entries ∧ p.serial = t.serial := by
  unfold owns
  cases found : r.find? t.id with
  | some p =>
    have pending := (find?_eq_some_iff shaped).mp found
    constructor
    · intro same
      exact ⟨p, pending, by simpa using same⟩
    · rintro ⟨q, other, same⟩
      obtain rfl : p = q := congrArg Prod.snd (shaped.eq_of_id pending other rfl)
      simpa using same
  | none =>
    have absent := (find?_eq_none_iff shaped).mp found
    constructor
    · intro no
      cases no
    · rintro ⟨p, pending, _⟩
      exact absurd pending (absent p)

theorem endingOf?_eq_some_iff (valid : r.Valid) {t : Ticket} {ending : Ending} :
    r.endingOf? t = some ending ↔ (t.serial, ending) ∈ r.endings :=
  lookup_eq_some_iff valid.once

theorem clearEnding_sheds (r : Registry) (t : Ticket) : r.Sheds (r.clearEnding t) every [] (·.1 != t.serial) := by
  refine ⟨rfl, ?_, (Nat.le_refl _), rfl, ?_, List.nodup_nil⟩
  · rw [retain_every, clearEnding]
  · intro f member
    cases member

/-- A caller that looks for its ending takes the one that is left for it, or times out and takes its
own call out, or waits on. -/
theorem await_cases (valid : r.Valid) (t : Ticket) (until_ now : Nat) :
    (∃ ending, (t.serial, ending) ∈ r.endings ∧ (r.await t until_ now).1 = some ending ∧
        r.Sheds (r.await t until_ now).2 every [] (·.1 != t.serial)) ∨
      (∀ ending, (t.serial, ending) ∉ r.endings) ∧
        ((until_ ≤ now ∧ (r.await t until_ now).1 = some .timedOut ∧
            (∃ p, (t.id, p) ∈ r.entries ∧ p.serial = t.serial) ∧
            r.Sheds (r.await t until_ now).2 (·.1 != t.id) [] every) ∨
          (until_ ≤ now ∧ r.await t until_ now = (some .cancelled, r) ∧
            ¬∃ p, (t.id, p) ∈ r.entries ∧ p.serial = t.serial) ∨
          now < until_ ∧ r.await t until_ now = (none, r)) := by
  cases left : r.endingOf? t with
  | some ending =>
    refine Or.inl ⟨ending, (endingOf?_eq_some_iff valid).mp left, by rw [await, left], ?_⟩
    rw [await, left]
    exact clearEnding_sheds r t
  | none =>
    have absent : ∀ ending, (t.serial, ending) ∉ r.endings := by
      intro ending member
      rw [(endingOf?_eq_some_iff valid).mpr member] at left
      cases left
    refine Or.inr ⟨absent, ?_⟩
    by_cases due : until_ ≤ now
    · by_cases own : r.owns t = true
      · obtain ⟨p, pending, same⟩ := (owns_iff valid.toShaped).mp own
        refine Or.inl ⟨due, ?_, ⟨p, pending, same⟩, ?_⟩
        · simp only [await, left, if_pos due, own, if_true]
        · simp only [await, left, if_pos due, own, if_true]
          exact .one [] valid.toShaped pending (Nat.zero_le 1) rfl rfl rfl rfl
      · refine Or.inr (Or.inl ⟨due, ?_, fun h => own ((owns_iff valid.toShaped).mpr h)⟩)
        simp only [await, left, if_pos due, if_neg own]
    · refine Or.inr (Or.inr ⟨by omega, ?_⟩)
      simp only [await, left, if_neg due]

theorem release_cases (valid : r.Valid) (t : Ticket) :
    (∃ p, (t.id, p) ∈ r.entries ∧ p.serial = t.serial ∧ r.Sheds (r.release t) (·.1 != t.id) [] every) ∨
      (¬∃ p, (t.id, p) ∈ r.entries ∧ p.serial = t.serial) ∧
        r.Sheds (r.release t) every [] (·.1 != t.serial) := by
  by_cases own : r.owns t = true
  · obtain ⟨p, pending, same⟩ := (owns_iff valid.toShaped).mp own
    refine Or.inl ⟨p, pending, same, ?_⟩
    rw [release, if_pos own]
    exact .one [] valid.toShaped pending (Nat.zero_le 1) rfl rfl rfl rfl
  · refine Or.inr ⟨fun h => own ((owns_iff valid.toShaped).mpr h), ?_⟩
    rw [release, if_neg own]
    exact clearEnding_sheds r t

/-! ### Registries with less in them -/

/-- Nothing is pending that was not pending before, and no reply is left that was not there before. -/
structure Lessens (r r' : Registry) : Prop where
  valid : r'.Valid
  entries : ∀ e ∈ r'.entries, e ∈ r.entries
  replies : ∀ serial text, (serial, .reply text) ∈ r'.endings → (serial, .reply text) ∈ r.endings
  serial : r.nextSerial ≤ r'.nextSerial

theorem Lessens.refl (valid : r.Valid) : r.Lessens r :=
  ⟨valid, fun _ member => member, fun _ _ member => member, Nat.le_refl _⟩

theorem Sheds.lessens {r' : Registry} {stays : String × PendingCall → Bool} {new : List (Nat × Ending)}
    {kept : Nat × Ending → Bool} (sheds : r.Sheds r' stays new kept) (before : r.Valid)
    (silent : ∀ serial text, (serial, .reply text) ∉ new) : r.Lessens r' := by
  refine ⟨sheds.valid before, ?_, ?_, sheds.serial⟩
  · intro e member
    exact (sheds.mem_entries.mp member).1
  · intro serial text member
    rcases sheds.mem_endings.mp member with new | ⟨old, _⟩
    · exact absurd new (silent serial text)
    · exact old

theorem sweep_lessens (valid : r.Valid) (now : Nat) : r.Lessens (r.sweep now).2 := by
  apply (sweep_sheds valid now).lessens valid
  intro serial text member
  obtain ⟨_, _, same⟩ := List.mem_map.mp member
  cases same

theorem cancel_lessens (valid : r.Valid) (id : String) : r.Lessens (r.cancel id).2 := by
  rcases cancel_cases valid.toShaped id with ⟨_, _, _, sheds⟩ | ⟨_, _, same⟩
  · apply sheds.lessens valid
    intro serial text member
    cases List.mem_singleton.mp member
  · rw [same]
    exact .refl valid

theorem release_lessens (valid : r.Valid) (t : Ticket) : r.Lessens (r.release t) := by
  rcases release_cases valid t with ⟨_, _, _, sheds⟩ | ⟨_, sheds⟩
  · exact sheds.lessens valid nofun
  · exact sheds.lessens valid nofun

theorem await_lessens (valid : r.Valid) (t : Ticket) (until_ now : Nat) :
    r.Lessens (r.await t until_ now).2 := by
  rcases await_cases valid t until_ now with
    ⟨_, _, _, sheds⟩ | ⟨_, ⟨_, _, _, sheds⟩ | ⟨_, told, _⟩ | ⟨_, waits⟩⟩
  · exact sheds.lessens valid nofun
  · exact sheds.lessens valid nofun
  · rw [told]
    exact .refl valid
  · rw [waits]
    exact .refl valid

/-- A reply that a caller is told was left for it. -/
theorem left_of_await (valid : r.Valid) {t : Ticket} {until_ now : Nat} {text : String}
    (told : (r.await t until_ now).1 = some (.reply text)) : (t.serial, .reply text) ∈ r.endings := by
  rcases await_cases valid t until_ now with
    ⟨ending, left, answer, _⟩ | ⟨_, ⟨_, answer, _⟩ | ⟨_, answer, _⟩ | ⟨_, answer⟩⟩
  · rw [told] at answer
    exact Option.some.inj answer ▸ left
  · rw [told] at answer
    cases answer
  · rw [answer] at told
    cases told
  · rw [answer] at told
    cases told

end Registry

end SoapRelay
