import SoapRelay.Proofs.Fields
import SoapRelay.Proofs.Line
import SoapRelay.Proofs.Part

/-!
# Calls under different ids do not interfere

A session is set beside one in which only what concerns one id is done, at the same times. Under that
id the same is seen of both: the same answers, and the same ends of waits at the same times.
-/

namespace SoapRelay

namespace Table

variable {α β : Type} {own : String → Bool} {f : α → β} {t : Table α} {t' : Table β} {name : String}

/-- The values that a table has under own names. -/
def within (t : Table α) (own : String → Bool) : List (String × α) :=
  t.entries.filter (own ·.1)

theorem find?_within (mine : own name = true) :
    (t.within own).find? (·.1 == name) = t.entries.find? (·.1 == name) := by
  rw [within, List.find?_filter]
  refine find?_congr fun e _ => ?_
  by_cases same : e.1 = name
  · simp [same, mine]
  · simp [same]

theorem within_erase (t : Table α) (name : String) (own : String → Bool) :
    (t.erase name).within own = (t.within own).filter (·.1 != name) :=
  List.filter_comm ..

theorem within_erase_foreign (other : own name = false) : (t.erase name).within own = t.within own := by
  rw [within_erase]
  refine List.filter_eq_self.mpr fun e member => bne_iff_ne.mpr ?_
  rintro rfl
  cases (List.mem_filter.mp member).2.symm.trans other

theorem within_put (mine : own name = true) (value : α) :
    (t.put name value).within own = (name, value) :: (t.erase name).within own :=
  List.filter_cons_of_pos mine

theorem within_put_foreign (other : own name = false) (value : α) :
    (t.put name value).within own = t.within own := by
  have first : (t.put name value).within own = (t.erase name).within own :=
    List.filter_cons_of_neg (Bool.eq_false_iff.mp other)
  rw [first, within_erase_foreign other]

theorem mem_of_get? {value : α} (found : t.get? name = some value) : (name, value) ∈ t.entries := by
  obtain ⟨⟨key, _⟩, first, rfl⟩ := Option.map_eq_some_iff.mp found
  obtain rfl : key = name := by simpa using List.find?_some first
  exact List.mem_of_find?_eq_some first

theorem mem_put {value : α} {e : String × α} (member : e ∈ (t.put name value).entries) :
    e = (name, value) ∨ e ∈ t.entries := by
  rcases List.mem_cons.mp member with rfl | old
  · exact Or.inl rfl
  · exact Or.inr (List.mem_of_mem_filter old)

/-- The values under own names, each turned into what it is elsewhere. -/
def Part (own : String → Bool) (f : α → β) (t : Table α) (t' : Table β) : Prop :=
  t'.entries = (t.within own).map fun e => (e.1, f e.2)

namespace Part

theorem get? (part : Part own f t t') (mine : own name = true) : t'.get? name = (t.get? name).map f := by
  rw [Table.get?, part, List.find?_map, Table.get?, ← find?_within mine, Option.map_map, Option.map_map]
  rfl

theorem erase (part : Part own f t t') (name : String) : Part own f (t.erase name) (t'.erase name) := by
  rw [Part, within_erase, Table.erase, part, List.filter_map]
  rfl

theorem erase_foreign (part : Part own f t t') (other : own name = false) : Part own f (t.erase name) t' := by
  rw [Part, within_erase_foreign other]
  exact part

theorem put (part : Part own f t t') (mine : own name = true) (value : α) :
    Part own f (t.put name value) (t'.put name (f value)) := by
  rw [Part, within_put mine, Table.put, part.erase name]
  rfl

theorem put_foreign (part : Part own f t t') (other : own name = false) (value : α) :
    Part own f (t.put name value) t' := by
  rw [Part, within_put_foreign other]
  exact part

theorem congr {g : α → β} (part : Part own f t t') (same : ∀ e ∈ t.entries, own e.1 = true → f e.2 = g e.2) :
    Part own g t t' := by
  refine Eq.trans part (List.map_congr_left fun e member => ?_)
  obtain ⟨inside, mine⟩ := List.mem_filter.mp member
  rw [same e inside mine]

end Part

end Table

namespace RegistrySession

open Registry

variable {s u : RegistrySession} {own : String → Bool} {id : String} {ν : Numbering} {extra : List Ticket}
  {name : String} {t : Ticket}

/-- The tickets that are kept under own names. -/
def kept (own : String → Bool) (tickets : Table Ticket) : List Ticket :=
  (tickets.within own).map (·.2)

theorem kept_take {tickets : Table Ticket} (found : tickets.get? name = some t) (mine : own name = true) :
    ∃ others, (kept own tickets).Perm (t :: others) ∧ (kept own (tickets.erase name)).Sublist others := by
  obtain ⟨e, first, rfl⟩ := Option.map_eq_some_iff.mp found
  rw [← Table.find?_within mine] at first
  obtain ⟨others, same, fewer⟩ := exists_perm_of_find? first
  refine ⟨others.map Prod.snd, same.map Prod.snd, ?_⟩
  rw [kept, Table.within_erase]
  exact fewer.map Prod.snd

/-- A session with those callers of another one only whose names are among the own ones. -/
structure Part (own : String → Bool) (id : String) (ν : Numbering) (extra : List Ticket) (s u : RegistrySession) :
    Prop where
  now : u.now = s.now
  desk : s.desk.Part own id ν (extra ++ kept own s.tickets) u.desk
  tickets : Table.Part own ν.ticket s.tickets u.tickets
  callers : Table.Part own ν.anew s.callers u.callers
  foreign : ∀ e ∈ s.tickets.entries, own e.1 = false → ν.Foreign id s.desk.registry.nextSerial e.2
  known : ∀ e ∈ s.callers.entries, e.2 < s.desk.registry.nextSerial ∧ (ν.mine e.2 ↔ own e.1 = true)

namespace Part

theorem withDesk {d e : Desk} {others : List Ticket} (part : Part own id ν extra s u)
    (desk : d.Part own id ν (others ++ kept own s.tickets) e)
    (later : s.desk.registry.nextSerial ≤ d.registry.nextSerial) :
    Part own id ν others { s with desk := d } { u with desk := e } :=
  ⟨part.now, desk, part.tickets, part.callers, fun e member other => (part.foreign e member other).mono later,
    fun e member => ⟨Nat.lt_of_lt_of_le (part.known e member).1 later, (part.known e member).2⟩⟩

/-! ### Tickets that are given up -/

theorem drop (part : Part own id ν extra s u) (mine : own name = true) :
    Part own id ν extra (s.drop name) (u.drop name) := by
  unfold RegistrySession.drop
  rw [part.tickets.get? mine]
  cases found : s.tickets.get? name with
  | none => exact part
  | some t =>
    obtain ⟨others, same, fewer⟩ := kept_take found mine
    have first := part.desk.perm ((same.append_left extra).trans List.perm_middle)
    have later := (release_ages part.desk.twins.left t).serial
    refine ⟨part.now, first.release.sublist (fewer.append_left extra), part.tickets.erase name, part.callers, ?_, ?_⟩
    · intro e member other
      exact (part.foreign e (List.mem_of_mem_filter member) other).mono later
    · intro e member
      exact ⟨Nat.lt_of_lt_of_le (part.known e member).1 later, (part.known e member).2⟩

theorem drop_foreign (part : Part own id ν extra s u) (other : own name = false) :
    Part own id ν extra (s.drop name) u := by
  unfold RegistrySession.drop
  cases found : s.tickets.get? name with
  | none => exact part
  | some t =>
    have foreign := part.foreign _ (Table.mem_of_get? found) other
    have later := (release_ages part.desk.twins.left t).serial
    refine ⟨part.now, ?_, part.tickets.erase_foreign other, part.callers, ?_, ?_⟩
    · dsimp only
      rw [kept, Table.within_erase_foreign other]
      exact part.desk.release_foreign foreign
    · intro e member name
      exact (part.foreign e (List.mem_of_mem_filter member) name).mono later
    · intro e member
      exact ⟨Nat.lt_of_lt_of_le (part.known e member).1 later, (part.known e member).2⟩

theorem drop_serial (part : Part own id ν extra s u) (name : String) :
    s.desk.registry.nextSerial ≤ (s.drop name).desk.registry.nextSerial := by
  unfold RegistrySession.drop
  split
  · exact (release_ages part.desk.twins.left _).serial
  · exact Nat.le_refl _

/-! ### Registrations -/

theorem add {r q : Registry} (part : Part own id ν [] s u) (serial : r.nextSerial = s.desk.registry.nextSerial + 1)
    (twins : Twins id (ν.add s.desk.registry.nextSerial u.desk.registry.nextSerial)
      (t :: ((s.desk.waiters.filter (own ·.name)).map (·.ticket) ++ kept own s.tickets)) r q) :
    Part own id (ν.add s.desk.registry.nextSerial u.desk.registry.nextSerial) [t] (s.withRegistry r)
      (u.withRegistry q) := by
  refine ⟨part.now, part.desk.add serial twins, ?_, ?_, ?_, ?_⟩
  · refine part.tickets.congr fun e member mine => ?_
    have inside : e.2 ∈ kept own s.tickets := List.mem_map_of_mem (List.mem_filter.mpr ⟨member, mine⟩)
    have issued := part.desk.twins.first e.2 (List.mem_append_right _ inside)
    exact (Numbering.add_ticket_of_lt issued.before).symm
  · exact part.callers.congr fun e member _ => (Numbering.add_anew_of_lt (part.known e member).1).symm
  · intro e member other
    show (ν.add _ _).Foreign id r.nextSerial e.2
    rw [serial]
    exact (part.foreign e member other).add
  · intro e member
    obtain ⟨early, mine⟩ := part.known e member
    show e.2 < r.nextSerial ∧ (e.2 = s.desk.registry.nextSerial ∨ ν.mine e.2 ↔ _)
    refine ⟨by omega, ?_⟩
    rw [← mine]
    exact or_iff_right (Nat.ne_of_lt early)

theorem put (part : Part own id ν [t] s u) (mine : own name = true) :
    Part own id ν [] { s with tickets := s.tickets.put name t }
      { u with tickets := u.tickets.put name (ν.ticket t) } := by
  refine ⟨part.now, ?_, part.tickets.put mine t, part.callers, ?_, part.known⟩
  · refine part.desk.sublist ?_
    rw [kept, kept, Table.within_put mine, Table.within_erase]
    exact (List.filter_sublist.map _).cons_cons t
  · intro e member other
    rcases Table.mem_put member with rfl | old
    · cases mine.symm.trans other
    · exact part.foreign e old other

theorem put_foreign (part : Part own id ν [] s u) (other : own name = false)
    (foreign : ν.Foreign id s.desk.registry.nextSerial t) :
    Part own id ν [] { s with tickets := s.tickets.put name t } u := by
  refine ⟨part.now, ?_, part.tickets.put_foreign other t, part.callers, ?_, part.known⟩
  · dsimp only
    rw [kept, Table.within_put_foreign other]
    exact part.desk
  · intro e member name
    rcases Table.mem_put member with rfl | old
    · exact foreign
    · exact part.foreign e old name

theorem register (part : Part own id ν [] s u) (limit : Limit) (mine : own name = true) :
    (s.register id limit name).1 = (u.register id limit name).1 ∧
      ∃ ν, Part own id ν [] (s.register id limit name).2 (u.register id limit name).2 := by
  unfold RegistrySession.register
  rw [part.now]
  cases valid : CallId.ofString id with
  | error e => exact ⟨rfl, ν, part⟩
  | ok call =>
    have same := ofString_eq_ok_iff.mp valid
    have later := (register_ages part.desk.twins.left s.now call (limit.deadline s.now)).serial
    dsimp only
    rcases part.desk.twins.register s.now (limit.deadline s.now) same with
      ⟨refused, too, twins⟩ | ⟨accepted, too, serial, twins⟩
    · rw [← Prod.eta (s.desk.registry.register s.now call _), refused,
        ← Prod.eta (u.desk.registry.register s.now call _), too]
      exact ⟨rfl, ν, part.withDesk (part.desk.withRegistry twins later) later⟩
    · rw [← Prod.eta (s.desk.registry.register s.now call _), accepted,
        ← Prod.eta (u.desk.registry.register s.now call _), too]
      refine ⟨rfl, ν.add s.desk.registry.nextSerial u.desk.registry.nextSerial, ?_⟩
      have placed := ((part.add serial twins).drop mine).put mine
      rw [Numbering.ticket, Numbering.add_anew_self] at placed
      exact placed

theorem register_foreign (part : Part own id ν [] s u) {other : String} (limit : Limit) (foreign : own name = false)
    (different : other ≠ id) : Part own id ν [] (s.register other limit name).2 u := by
  unfold RegistrySession.register
  cases valid : CallId.ofString other with
  | error e => exact part
  | ok call =>
    have elsewhere : call.text ≠ id := ofString_eq_ok_iff.mp valid ▸ different
    have later := (register_ages part.desk.twins.left s.now call (limit.deadline s.now)).serial
    have aside := part.desk.twins.register_aside s.now (limit.deadline s.now) elsewhere
    have entered :
        Part own id ν [] (s.withRegistry (s.desk.registry.register s.now call (limit.deadline s.now)).2) u :=
      part.withDesk (part.desk.withRegistry aside later) later
    rcases register_seen part.desk.twins.left s.now call (limit.deadline s.now) with
      ⟨_, refused, _⟩ | ⟨_, accepted, enters⟩
    · dsimp only
      rw [← Prod.eta (s.desk.registry.register s.now call _), refused]
      exact entered
    · dsimp only
      rw [← Prod.eta (s.desk.registry.register s.now call _), accepted]
      refine (entered.drop_foreign foreign).put_foreign foreign ⟨elsewhere, ?_, ?_⟩
      · intro mine
        exact Nat.lt_irrefl _ (part.desk.twins.fits.before _ mine).1
      · refine Nat.lt_of_lt_of_le ?_ (entered.drop_serial name)
        exact enters.serial ▸ Nat.lt_succ_self _

/-! ### Callers that wait and callers that are sent away -/

theorem wait (part : Part own id ν [] s u) (until? : Option Nat) (mine : own name = true) :
    (s.perform (.wait name until?)).1 = (u.perform (.wait name until?)).1 ∧
      Part own id ν [] (s.perform (.wait name until?)).2 (u.perform (.wait name until?)).2 := by
  unfold perform
  dsimp only
  rw [part.tickets.get? mine]
  cases found : s.tickets.get? name with
  | none => exact ⟨rfl, part⟩
  | some t =>
    obtain ⟨others, same, fewer⟩ := kept_take found mine
    have taken := part.desk.perm same
    have first : t ∈ (s.desk.waiters.filter (own ·.name)).map (·.ticket) ++ t :: others :=
      List.mem_append_right _ List.mem_cons_self
    refine ⟨rfl, part.now, ?_, part.tickets.erase name, part.callers.put mine t.serial, ?_, ?_⟩
    · exact (taken.enter mine _).sublist fewer
    · exact fun e member other => part.foreign e (List.mem_of_mem_filter member) other
    · intro e member
      rcases Table.mem_put member with rfl | old
      · exact ⟨(taken.twins.first t first).before, iff_of_true (taken.twins.mine t first) mine⟩
      · exact part.known e old

theorem wait_foreign (part : Part own id ν [] s u) (until? : Option Nat) (other : own name = false) :
    Part own id ν [] (s.perform (.wait name until?)).2 u := by
  unfold perform
  dsimp only
  cases found : s.tickets.get? name with
  | none => exact part
  | some t =>
    have foreign := part.foreign _ (Table.mem_of_get? found) other
    refine ⟨part.now, ?_, part.tickets.erase_foreign other, part.callers.put_foreign other t.serial, ?_, ?_⟩
    · dsimp only
      rw [kept, Table.within_erase_foreign other]
      exact part.desk.enter_foreign other foreign _
    · exact fun e member name => part.foreign e (List.mem_of_mem_filter member) name
    · intro e member
      rcases Table.mem_put member with rfl | old
      · exact ⟨foreign.before, iff_of_false foreign.mine (Bool.eq_false_iff.mp other)⟩
      · exact part.known e old

theorem abort (part : Part own id ν [] s u) (mine : own name = true) :
    (s.perform (.abort name)).1 = (u.perform (.abort name)).1 ∧
      Part own id ν [] (s.perform (.abort name)).2 (u.perform (.abort name)).2 := by
  unfold perform
  dsimp only
  rw [part.callers.get? mine]
  cases found : s.callers.get? name with
  | none => exact ⟨rfl, part⟩
  | some serial =>
    have known := part.known _ (Table.mem_of_get? found)
    have erased : Part own id ν [] { s with callers := s.callers.erase name }
        { u with callers := u.callers.erase name } :=
      ⟨part.now, part.desk, part.tickets, part.callers.erase name, part.foreign,
        fun e member => part.known e (List.mem_of_mem_filter member)⟩
    rcases part.desk.abandon (known.2.mpr mine) with ⟨none, too⟩ | ⟨d, e, gone, too, desk, later⟩
    · dsimp only [Option.map_some]
      rw [none, too]
      exact ⟨rfl, erased⟩
    · dsimp only [Option.map_some]
      rw [gone, too]
      exact ⟨rfl, erased.withDesk desk later⟩

theorem abort_foreign (part : Part own id ν [] s u) (other : own name = false) :
    Part own id ν [] (s.perform (.abort name)).2 u := by
  unfold perform
  dsimp only
  cases found : s.callers.get? name with
  | none => exact part
  | some serial =>
    have known := part.known _ (Table.mem_of_get? found)
    have foreign : ¬ν.mine serial := fun mine => Bool.eq_false_iff.mp other (known.2.mp mine)
    have erased : Part own id ν [] { s with callers := s.callers.erase name } u :=
      ⟨part.now, part.desk, part.tickets, part.callers.erase_foreign other, part.foreign,
        fun e member => part.known e (List.mem_of_mem_filter member)⟩
    dsimp only
    cases gone : s.desk.abandon? serial with
    | none => exact erased
    | some d =>
      obtain ⟨desk, later⟩ := part.desk.abandon_foreign foreign gone
      exact erased.withDesk desk later

end Part

/-! ### Steps -/

/-- A step on an id, by its name or the name of its caller, or a step on none: time that passes, sweeps and
their reaper. -/
def Step.concerns (home : String → String) (id : String) : Step → Bool
  | .register _ _ name | .wait name _ | .abort name | .drop name => home name == id
  | .resolve other _ | .cancel other | .contains other => other == id
  | .evict | .sleep _ | .reaper _ | .stopReaper => true

/-- A name is for tickets of one id only. -/
def Step.homed (home : String → String) : Step → Bool
  | .register id _ name => home name == id
  | _ => true

/-- A sweep counts the calls of all ids that it ends. -/
def Answer.seen : Answer → Answer
  | .count _ => .none
  | answer => answer

/-- The session with one id's part of it, between steps. -/
structure Beside (own : String → Bool) (id : String) (ν : Numbering) (s u : RegistrySession) : Prop where
  part : Part own id ν [] s u
  left : s.desk.Rests s.now
  right : u.desk.Rests u.now
  none : s.desk.ended = []

variable {home : String → String} {next : Step}

theorem Beside.perform (beside : Beside (home · == id) id ν s u) (homed : next.homed home = true)
    (concerns : next.concerns home id = true) : (s.perform next).1.seen = (u.perform next).1.seen ∧
      ∃ ν, Part (home · == id) id ν [] (s.perform next).2 (u.perform next).2 := by
  have part := beside.part
  have now := part.now
  have twins := part.desk.twins
  cases next with
  | register other limit name =>
    obtain rfl : other = id := (beq_iff_eq.mp homed).symm.trans (beq_iff_eq.mp concerns)
    obtain ⟨answer, after⟩ := part.register limit concerns
    exact ⟨congrArg Answer.seen answer, after⟩
  | wait name until? =>
    obtain ⟨answer, after⟩ := part.wait until? concerns
    exact ⟨congrArg Answer.seen answer, ν, after⟩
  | abort name =>
    obtain ⟨answer, after⟩ := part.abort concerns
    exact ⟨congrArg Answer.seen answer, ν, after⟩
  | drop name =>
    refine ⟨?_, ν, part.drop concerns⟩
    show Answer.flag (s.tickets.get? name).isSome = Answer.flag (u.tickets.get? name).isSome
    rw [part.tickets.get? concerns, Option.isSome_map]
  | resolve other reply =>
    obtain rfl : other = id := beq_iff_eq.mp concerns
    obtain ⟨answer, after⟩ := twins.resolve s.now reply
    have later := (resolve_ages twins.left s.now other reply).serial
    unfold RegistrySession.perform
    rw [now]
    exact ⟨congrArg Answer.flag answer, ν, part.withDesk (part.desk.withRegistry after later) later⟩
  | cancel other =>
    obtain rfl : other = id := beq_iff_eq.mp concerns
    obtain ⟨answer, after⟩ := twins.cancel
    have later := (cancel_ages twins.left other).serial
    exact ⟨congrArg Answer.flag answer, ν, part.withDesk (part.desk.withRegistry after later) later⟩
  | contains other =>
    obtain rfl : other = id := beq_iff_eq.mp concerns
    refine ⟨?_, ν, part⟩
    show Answer.flag (s.desk.registry.contains other) = Answer.flag (u.desk.registry.contains other)
    rw [← isSome_due?, ← isSome_due?, twins.due]
  | evict =>
    have later := ((sweep_sheds twins.left s.now).ages twins.left).serial
    unfold RegistrySession.perform
    rw [now]
    exact ⟨rfl, ν, part.withDesk (part.desk.withRegistry (twins.sweep s.now) later) later⟩
  | sleep time =>
    have right : u.desk.Rests s.now := now ▸ beside.right
    have later := (Desk.pass_ages twins.left (s.now + time) s.now).serial
    have passed := part.withDesk (part.desk.pass beside.left right (s.now + time)) later
    unfold RegistrySession.perform
    rw [now]
    exact ⟨rfl, ν, rfl, passed.desk, passed.tickets, passed.callers, passed.foreign, passed.known⟩
  | reaper interval =>
    have placed := part.withDesk (part.desk.withReaper (some ⟨interval, s.now⟩)) (Nat.le_refl _)
    have same : (u.perform (.reaper interval)).2 =
        { u with desk := { u.desk with reaper? := some ⟨interval, s.now⟩ } } := by
      rw [← now]
      rfl
    exact ⟨rfl, ν, same ▸ placed⟩
  | stopReaper => exact ⟨rfl, ν, part.withDesk (part.desk.withReaper Option.none) (Nat.le_refl _)⟩

theorem Beside.perform_foreign (beside : Beside (home · == id) id ν s u) (homed : next.homed home = true)
    (foreign : next.concerns home id = false) : Part (home · == id) id ν [] (s.perform next).2 u := by
  have part := beside.part
  have twins := part.desk.twins
  have named : ∀ {other : String}, (other == id) = false → other ≠ id :=
    fun different => bne_iff_ne.mp (by simpa using different)
  cases next with
  | register other limit name =>
    refine part.register_foreign limit foreign (named ?_)
    have home_eq : home name = other := beq_iff_eq.mp homed
    rw [← home_eq]
    exact foreign
  | wait name until? => exact part.wait_foreign until? foreign
  | abort name => exact part.abort_foreign foreign
  | drop name => exact part.drop_foreign foreign
  | resolve other reply =>
    have later := (resolve_ages twins.left s.now other reply).serial
    exact part.withDesk (part.desk.withRegistry (twins.resolve_aside s.now reply (named foreign)) later) later
  | cancel other =>
    have later := (cancel_ages twins.left other).serial
    exact part.withDesk (part.desk.withRegistry (twins.cancel_aside (named foreign)) later) later
  | contains other => exact part
  | evict => cases foreign
  | sleep time => cases foreign
  | reaper interval => cases foreign
  | stopReaper => cases foreign

theorem Part.collect (part : Part own id ν [] s u) :
    (s.desk.wake s.now).ended.filter (own ·.name) = (u.desk.wake u.now).ended ∧
      Beside own id ν { s with desk := { s.desk.wake s.now with ended := [] } }
        { u with desk := { u.desk.wake u.now with ended := [] } } := by
  have woken : (s.desk.wake s.now).Part own id ν ([] ++ kept own s.tickets) (u.desk.wake u.now) := by
    rw [part.now]
    exact part.desk.wake s.now
  have later := (Desk.wake_ages part.desk.twins.left s.now).serial
  have left := Desk.rests_wake s.desk s.now
  have right := Desk.rests_wake u.desk u.now
  refine ⟨woken.ended.symm, ?_, ⟨left.waits, left.sweeps⟩, ⟨right.waits, right.sweeps⟩, rfl⟩
  exact part.withDesk ⟨woken.twins, woken.waiters, rfl, woken.reaper, woken.foreign⟩ later

theorem Beside.step (beside : Beside (home · == id) id ν s u) (homed : next.homed home = true)
    (concerns : next.concerns home id = true) : (s.step next).1.seen = (u.step next).1.seen ∧
      (s.step next).2.1.filter (home ·.name == id) = (u.step next).2.1 ∧
      ∃ ν, Beside (home · == id) id ν (s.step next).2.2 (u.step next).2.2 := by
  obtain ⟨answer, ν, after⟩ := beside.perform homed concerns
  obtain ⟨ended, rests⟩ := after.collect
  exact ⟨answer, ended, ν, rests⟩

/-- Nothing is seen of a step on another id. -/
theorem Beside.step_foreign (beside : Beside (home · == id) id ν s u) (homed : next.homed home = true)
    (foreign : next.concerns home id = false) : (s.step next).2.1.filter (home ·.name == id) = [] ∧
      Beside (home · == id) id ν (s.step next).2.2 u := by
  obtain ⟨ended, rests⟩ := (beside.perform_foreign homed foreign).collect
  have none : u.desk.ended = [] := by
    rw [beside.part.desk.ended, beside.none]
    rfl
  have still : { u.desk.wake u.now with ended := [] } = u.desk := by
    rw [beside.right.wake, ← none]
  rw [beside.right.wake, none] at ended
  rw [still] at rests
  exact ⟨ended, rests⟩

/-! ### Runs -/

def Event.concerns (home : String → String) (id : String) (e : Event) : Bool :=
  e.step.concerns home id

/-- What is seen of an event under an id. -/
def Event.under (home : String → String) (id : String) (e : Event) :
    Step × Answer × List Ended × Nat × Bool :=
  (e.step, e.answer.seen, e.ended.filter (home ·.name == id), e.after.now, e.after.desk.registry.contains id)

theorem Beside.contains (beside : Beside own id ν s u) :
    s.desk.registry.contains id = u.desk.registry.contains id := by
  rw [← isSome_due?, ← isSome_due?, beside.part.desk.twins.due]

theorem Beside.event_under (beside : Beside (home · == id) id ν s u) (homed : next.homed home = true)
    (concerns : next.concerns home id = true) : (s.event next).under home id = (u.event next).under home id := by
  obtain ⟨answer, ended, ν, after⟩ := beside.step homed concerns
  -- All that ends in the session by itself is the id's, so it may be filtered again.
  have own : ∀ w ∈ (u.step next).2.1, (home w.name == id) = true := by
    intro w member
    rw [← ended] at member
    exact (List.mem_filter.mp member).2
  show (next, (s.step next).1.seen, (s.step next).2.1.filter (home ·.name == id), (s.step next).2.2.now,
    (s.step next).2.2.desk.registry.contains id) = (next, (u.step next).1.seen,
    (u.step next).2.1.filter (home ·.name == id), (u.step next).2.2.now, (u.step next).2.2.desk.registry.contains id)
  rw [answer, ended, List.filter_eq_self.mpr own, after.part.now, after.contains]

theorem Beside.run (beside : Beside (home · == id) id ν s u) (steps : List Step)
    (homed : ∀ next ∈ steps, next.homed home = true) :
    ((s.events steps).filter (Event.concerns home id)).map (Event.under home id) =
        (u.events (steps.filter (Step.concerns home id))).map (Event.under home id) ∧
      (∀ e ∈ s.events steps, e.concerns home id = false → ∀ w ∈ e.ended, home w.name ≠ id) ∧
      (s.after steps).desk.registry.contains id =
        (u.after (steps.filter (Step.concerns home id))).desk.registry.contains id := by
  -- A registration under the id numbers its call anew, and a step on another id leaves the second session
  -- where it was.
  induction steps generalizing ν s u with
  | nil => exact ⟨rfl, fun e member => absurd member List.not_mem_nil, beside.contains⟩
  | cons next steps ih =>
    have first := homed next List.mem_cons_self
    have rest := fun step member => homed step (List.mem_cons_of_mem next member)
    have own : (s.event next).concerns home id = next.concerns home id := rfl
    cases concerns : next.concerns home id with
    | true =>
      rw [concerns] at own
      obtain ⟨answer, ended, ν', after⟩ := beside.step first concerns
      obtain ⟨seen, others, final⟩ := ih after rest
      have same := beside.event_under first concerns
      rw [List.filter_cons_of_pos concerns, events, events, List.filter_cons_of_pos own, List.map_cons, List.map_cons,
        same, seen]
      refine ⟨rfl, ?_, final⟩
      intro e member foreign
      rcases List.mem_cons.mp member with rfl | later
      · cases own.symm.trans foreign
      · exact others e later foreign
    | false =>
      rw [concerns] at own
      obtain ⟨none, after⟩ := beside.step_foreign first concerns
      obtain ⟨seen, others, final⟩ := ih after rest
      rw [List.filter_cons_of_neg (Bool.eq_false_iff.mp concerns), events,
        List.filter_cons_of_neg (Bool.eq_false_iff.mp own)]
      refine ⟨seen, ?_, final⟩
      intro e member foreign
      rcases List.mem_cons.mp member with rfl | later
      · intro w inside
        have drops := List.filter_eq_nil_iff.mp none w inside
        exact fun same => drops (beq_iff_eq.mpr same)
      · exact others e later foreign

theorem beside_ofRegistry (own : String → Bool) (id : String) (shards : Nat) (hash : String → UInt64) :
    Beside own id ⟨fun _ => False, fun serial => serial⟩ (ofRegistry (.create shards hash))
      (ofRegistry (.create shards hash)) := by
  have valid := create_valid shards hash
  have twins : Twins id ⟨fun _ => False, fun serial => serial⟩ [] (.create shards hash) (.create shards hash) :=
    ⟨valid, valid, rfl, ⟨nofun, nofun⟩, nofun, nofun, nofun, nofun, nofun, List.nodup_nil⟩
  have part : Part own id ⟨fun _ => False, fun serial => serial⟩ [] (ofRegistry (.create shards hash))
      (ofRegistry (.create shards hash)) := ⟨rfl, ⟨twins, rfl, rfl, rfl, nofun⟩, rfl, rfl, nofun, nofun⟩
  exact ⟨part, ⟨nofun, nofun⟩, ⟨nofun, nofun⟩, rfl⟩

end RegistrySession

/-- Whatever is done on other ids, in any order and in the same shards or in others, under an id the same is
seen as if only the operations on that id were done, with the same sweeps and at the same times. So it is
when callers look as they like, and when each one waits until it is told and a reaper sweeps. -/
theorem other_ids_do_not_interfere (shards : Nat) (hash : String → UInt64) (id : String) :
    (∀ ops, let x := Hall.start shards hash
        let own := ops.filter (Hall.Op.concerns id)
        ((x.events ops).filter (Hall.Event.concerns id)).map (Hall.Event.under id) =
            (x.events own).map (Hall.Event.under id) ∧
          (x.after ops).registry.contains id = (x.after own).registry.contains id ∧
          (x.after ops).line id = (x.after own).line id) ∧
      ∀ home steps, (∀ next ∈ steps, RegistrySession.Step.homed home next = true) →
        let s := RegistrySession.ofRegistry (.create shards hash)
        let own := steps.filter (RegistrySession.Step.concerns home id)
        ((s.events steps).filter (RegistrySession.Event.concerns home id)).map (RegistrySession.Event.under home id) =
            (s.events own).map (RegistrySession.Event.under home id) ∧
          (∀ e ∈ s.events steps, e.concerns home id = false → ∀ w ∈ e.ended, home w.name ≠ id) ∧
          (s.after steps).desk.registry.contains id = (s.after own).desk.registry.contains id := by
  constructor
  · intro ops
    have sound := Hall.start_sound shards hash
    obtain ⟨seen, line⟩ := Hall.run_under sound sound rfl ops
    refine ⟨seen, ?_, line⟩
    rw [Hall.line_contains, Hall.line_contains, line]
  · exact fun home steps homed => (RegistrySession.beside_ofRegistry _ id shards hash).run steps homed

/-- Callers with two ids, one of which is called back while the other one times out. -/
def crowd : List RegistrySession.Step :=
  [.register "again" (.at_ 5) "a", .register "other" (.at_ 3) "c", .wait "a" none, .wait "c" none,
    .register "again" (.at_ 7) "b", .sleep 4, .resolve "other" "late", .resolve "again" "yes", .evict]

def homes (name : String) : String :=
  if name = "c" then "other" else "again"

theorem other_ids_do_not_interfere_in_crowd :
    (∀ next ∈ crowd, next.homed homes = true) ∧
      (((RegistrySession.ofRegistry (.create 1 Registry.mix)).events crowd).filter
          (RegistrySession.Event.concerns homes "again")).map (RegistrySession.Event.under homes "again") =
        [(.register "again" (.at_ 5) "a", .registered "again" 5, [], 0, true), (.wait "a" none, .waiting, [], 0, true),
          (.register "again" (.at_ 7) "b", .duplicate Hall.again, [], 0, true), (.sleep 4, .none, [], 4, true),
          (.resolve "again" "yes", .flag true, [⟨"a", .reply "yes", 4⟩], 4, false), (.evict, .none, [], 4, false)] := by
  have homed : ∀ next ∈ crowd, next.homed homes = true := by decide +kernel
  refine ⟨homed, ?_⟩
  obtain ⟨_, sessions⟩ := other_ids_do_not_interfere 1 Registry.mix "again"
  obtain ⟨seen, _, _⟩ := sessions homes crowd homed
  refine seen.trans ?_
  decide +kernel

end SoapRelay
