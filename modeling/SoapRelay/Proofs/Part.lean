import SoapRelay.Proofs.Desk
import SoapRelay.Proofs.Session
import SoapRelay.Proofs.Twins

/-!
# The part of a desk that is for one id

A desk that serves the callers of all ids is set beside a desk that serves those of one id. The second
is the first with everybody else taken out of it, and stays so whatever others do there and whenever
the first desk wakes for them.
-/

namespace SoapRelay

section

variable {α : Type} {p : α → Bool} {a : α}

theorem filter_concat_of_pos (as : List α) (keeps : p a = true) : (as ++ [a]).filter p = as.filter p ++ [a] := by
  rw [List.filter_append, List.filter_cons_of_pos keeps, List.filter_nil]

theorem filter_concat_of_neg (as : List α) (drops : p a = false) : (as ++ [a]).filter p = as.filter p := by
  rw [List.filter_append, List.filter_cons_of_neg (Bool.eq_false_iff.mp drops), List.filter_nil, List.append_nil]

theorem find?_congr {q : α → Bool} {as : List α} (same : ∀ a ∈ as, p a = q a) : as.find? p = as.find? q := by
  rw [← List.head?_filter, ← List.head?_filter, List.filter_congr same]

end

def Numbering.waiter (ν : Numbering) (w : Waiter) : Waiter :=
  { w with ticket := ν.ticket w.ticket }

namespace Desk

open Registry

variable {d e : Desk} {w : Waiter} {now time limit : Nat}

/-! ### The part of a desk that is for one id -/

/-- A desk with those callers of another one only whose names are among the own ones, and with their calls. -/
structure Part (own : String → Bool) (id : String) (ν : Numbering) (idle : List Ticket) (d e : Desk) : Prop where
  twins : Twins id ν ((d.waiters.filter (own ·.name)).map (·.ticket) ++ idle) d.registry e.registry
  waiters : e.waiters = (d.waiters.filter (own ·.name)).map ν.waiter
  ended : e.ended = d.ended.filter (own ·.name)
  reaper : e.reaper? = d.reaper?
  foreign : ∀ w ∈ d.waiters, own w.name = false → ν.Foreign id d.registry.nextSerial w.ticket

/-! ### What the registry of a desk becomes -/

theorem look_ages (valid : d.registry.Valid) (now : Nat) (w : Waiter) :
    d.registry.Ages (d.look now w).registry := by
  have ages := await_ages valid w.ticket w.until_ now
  unfold look
  cases answer : d.registry.await w.ticket w.until_ now with
  | mk ending? r =>
    rw [answer] at ages
    cases ending? with
    | some ending => exact ages
    | none => exact ages

theorem wake_ages (valid : d.registry.Valid) (now : Nat) : d.registry.Ages (d.wake now).registry := by
  have looks : ∀ (waiters : List Waiter) (d : Desk), d.registry.Valid →
      d.registry.Ages (waiters.foldl (look now) d).registry := by
    intro waiters
    induction waiters with
    | nil => exact fun d valid => .refl valid
    | cons w rest ih =>
      intro d valid
      have first := look_ages valid now w
      exact first.trans (ih (d.look now w) first.valid)
  have reaped : d.registry.Ages (d.reap now).registry := by
    rcases (reap_cases d now).1 with same | swept
    · rw [same]
      exact .refl valid
    · rw [swept]
      exact (sweep_sheds valid now).ages valid
  exact reaped.trans (looks (d.reap now).waiters { d.reap now with waiters := [] } reaped.valid)

theorem pass_ages (valid : d.registry.Valid) (limit now : Nat) :
    d.registry.Ages (Clock.pass nextWake Desk.wake limit now d).registry := by
  fun_induction Clock.pass nextWake Desk.wake limit now d with
  | case1 now d none => exact .refl valid
  | case2 now d t found within ih =>
    have first := wake_ages valid t
    exact first.trans (ih first.valid)
  | case3 now d t found beyond => exact .refl valid

namespace Part

variable {own : String → Bool} {id : String} {ν : Numbering} {idle : List Ticket}

theorem look_foreign (part : Part own id ν idle d e) (other : own w.name = false)
    (foreign : ν.Foreign id d.registry.nextSerial w.ticket) (now : Nat) : Part own id ν idle (d.look now w) e := by
  have aside := part.twins.await_aside foreign w.until_ now
  have later := (await_ages part.twins.left w.ticket w.until_ now).serial
  unfold look
  cases answer : d.registry.await w.ticket w.until_ now with
  | mk ending? r =>
    rw [answer] at aside later
    have others : ∀ v ∈ d.waiters, own v.name = false → ν.Foreign id r.nextSerial v.ticket := fun v member name =>
      (part.foreign v member name).mono later
    cases ending? with
    | some ending =>
      refine ⟨aside, part.waiters, part.ended.trans ?_, part.reaper, others⟩
      exact (filter_concat_of_neg d.ended other).symm
    | none =>
      have same : (d.waiters ++ [w]).filter (own ·.name) = d.waiters.filter (own ·.name) :=
        filter_concat_of_neg d.waiters other
      refine ⟨?_, ?_, part.ended, part.reaper, ?_⟩
      · dsimp only
        rw [same]
        exact aside
      · dsimp only
        rw [same]
        exact part.waiters
      · intro v member name
        rcases List.mem_append.mp member with before | last
        · exact others v before name
        · obtain rfl := List.mem_singleton.mp last
          exact foreign.mono later

theorem look_own (part : Part own id ν (w.ticket :: idle) d e) (mine : own w.name = true) (now : Nat) :
    Part own id ν idle (d.look now w) (e.look now (ν.waiter w)) := by
  have twins := part.twins.perm List.perm_middle
  obtain ⟨told, after⟩ := twins.await w.until_ now
  have later := (await_ages part.twins.left w.ticket w.until_ now).serial
  have ticket : (ν.waiter w).ticket = ν.ticket w.ticket := rfl
  have until_ : (ν.waiter w).until_ = w.until_ := rfl
  unfold look
  rw [ticket, until_]
  cases first : d.registry.await w.ticket w.until_ now with
  | mk ending? r =>
    cases second : e.registry.await (ν.ticket w.ticket) w.until_ now with
    | mk other? q =>
      rw [first, second] at told after
      rw [first] at later
      obtain rfl : ending? = other? := told
      cases ending? with
      | some ending =>
        refine ⟨after, part.waiters, ?_, part.reaper, fun v member name => (part.foreign v member name).mono later⟩
        dsimp only
        rw [part.ended]
        exact (filter_concat_of_pos d.ended mine).symm
      | none =>
        obtain ⟨left, _⟩ := await_waits (congrArg Prod.fst first)
        obtain ⟨right, _⟩ := await_waits (congrArg Prod.fst second)
        obtain rfl : r = d.registry := congrArg Prod.snd (first.symm.trans left)
        obtain rfl : q = e.registry := congrArg Prod.snd (second.symm.trans right)
        have seats : (d.waiters ++ [w]).filter (own ·.name) = d.waiters.filter (own ·.name) ++ [w] :=
          filter_concat_of_pos d.waiters mine
        refine ⟨?_, ?_, part.ended, part.reaper, ?_⟩
        · dsimp only
          rw [seats, List.map_append, List.append_assoc]
          exact part.twins
        · dsimp only
          rw [seats, List.map_append, part.waiters]
          rfl
        · intro v member name
          rcases List.mem_append.mp member with before | last
          · exact part.foreign v before name
          · obtain rfl := List.mem_singleton.mp last
            rw [mine] at name
            cases name

theorem foldl_look (waiters : List Waiter) (now : Nat)
    (part : Part own id ν ((waiters.filter (own ·.name)).map (·.ticket) ++ idle) d e)
    (foreign : ∀ w ∈ waiters, own w.name = false → ν.Foreign id d.registry.nextSerial w.ticket) :
    Part own id ν idle (waiters.foldl (look now) d)
      (((waiters.filter (own ·.name)).map ν.waiter).foldl (look now) e) := by
  induction waiters generalizing d e with
  | nil => exact part
  | cons w rest ih =>
    have later := (look_ages part.twins.left now w).serial
    have others : ∀ v ∈ rest, own v.name = false → ν.Foreign id (d.look now w).registry.nextSerial v.ticket :=
      fun v member name => (foreign v (List.mem_cons_of_mem w member) name).mono later
    cases mine : own w.name with
    | true =>
      have kept : (w :: rest).filter (own ·.name) = w :: rest.filter (own ·.name) := List.filter_cons_of_pos mine
      rw [kept] at part ⊢
      exact ih (part.look_own mine now) others
    | false =>
      have kept : (w :: rest).filter (own ·.name) = rest.filter (own ·.name) :=
        List.filter_cons_of_neg (Bool.eq_false_iff.mp mine)
      rw [kept] at part ⊢
      exact ih (part.look_foreign mine (foreign w List.mem_cons_self mine) now) others

theorem settle (part : Part own id ν idle d e) (now : Nat) : Part own id ν idle (d.settle now) (e.settle now) := by
  have seats : Part own id ν ((d.waiters.filter (own ·.name)).map (·.ticket) ++ idle)
      { d with waiters := [] } { e with waiters := [] } :=
    ⟨part.twins, rfl, part.ended, part.reaper, nofun⟩
  rw [Desk.settle, Desk.settle, part.waiters]
  exact foldl_look d.waiters now seats part.foreign

theorem reap (part : Part own id ν idle d e) (now : Nat) : Part own id ν idle (d.reap now) (e.reap now) := by
  unfold Desk.reap
  rw [part.reaper]
  split
  · split
    · have swept := part.twins.sweep now
      exact ⟨swept, part.waiters, part.ended, rfl, fun w member name => part.foreign w member name⟩
    · exact part
  · exact part

theorem wake (part : Part own id ν idle d e) (now : Nat) : Part own id ν idle (d.wake now) (e.wake now) :=
  (part.reap now).settle now

/-- The timers of the part are timers of the whole. -/
theorem exists_nextWake (part : Part own id ν idle d e) {u : Nat} (found : e.nextWake = some u) :
    ∃ t, d.nextWake = some t ∧ t ≤ u := by
  have timer : u ∈ d.timers := by
    rw [mem_timers]
    rcases mem_timers.mp (Clock.mem_of_earliest found) with ⟨v, member, rfl⟩ | ⟨r, reaps, rfl⟩
    · rw [part.waiters] at member
      obtain ⟨w, inside, rfl⟩ := List.mem_map.mp member
      exact Or.inl ⟨w, List.mem_of_mem_filter inside, rfl⟩
    · exact Or.inr ⟨r, part.reaper ▸ reaps, rfl⟩
  exact Clock.exists_earliest_le timer

theorem le_nextWake (part : Part own id ν idle d e) {t u : Nat} (whole : d.nextWake = some t)
    (found : e.nextWake = some u) : t ≤ u := by
  obtain ⟨first, same, early⟩ := part.exists_nextWake found
  obtain rfl := Option.some.inj (whole.symm.trans same)
  exact early

/-- The part goes from timer to timer as the whole does, and rests where the whole wakes for others. -/
theorem pass (part : Part own id ν idle d e) (whole : d.Rests now) (rests : e.Rests now) (limit : Nat) :
    Part own id ν idle (Clock.pass nextWake Desk.wake limit now d) (Clock.pass nextWake Desk.wake limit now e) := by
  fun_induction Clock.pass nextWake Desk.wake limit now d generalizing e with
  | case1 now d nothing =>
    rw [Clock.pass_idle]
    · exact part
    · intro u found
      obtain ⟨t, some, _⟩ := part.exists_nextWake found
      cases nothing.symm.trans some
  | case2 now d t found within ih =>
    have woken := part.wake t
    by_cases due : e.nextWake = some t
    · rw [Clock.pass_next due within]
      exact ih woken (rests_wake d t) (rests_wake e t)
    · -- The whole wakes for others, and nothing in the part is due before the time of that.
      have early : ∀ u, e.nextWake = some u → t < u := by
        intro u later
        have least := part.le_nextWake found later
        have different : t ≠ u := fun same => due (same ▸ later)
        omega
      have still := rests.later early
      rw [still.wake] at woken
      rw [← pass_later (Nat.le_of_lt within.1) early limit]
      exact ih woken (rests_wake d t) still
  | case3 now d t found beyond =>
    have after := whole.lt_nextWake found
    rw [Clock.pass_idle]
    · exact part
    · intro u later
      have least := part.le_nextWake found later
      omega

/-! ### What others do at a desk -/

variable {r q : Registry} {t : Ticket} {others : List Ticket}

theorem withRegistry (part : Part own id ν idle d e)
    (twins : Twins id ν ((d.waiters.filter (own ·.name)).map (·.ticket) ++ others) r q)
    (later : d.registry.nextSerial ≤ r.nextSerial) :
    Part own id ν others { d with registry := r } { e with registry := q } :=
  ⟨twins, part.waiters, part.ended, part.reaper, fun w member name => (part.foreign w member name).mono later⟩

theorem perm (part : Part own id ν idle d e) (same : idle.Perm others) : Part own id ν others d e :=
  ⟨part.twins.perm (same.append_left _), part.waiters, part.ended, part.reaper, part.foreign⟩

theorem sublist (part : Part own id ν idle d e) (fewer : others.Sublist idle) : Part own id ν others d e :=
  ⟨part.twins.sublist (fewer.append_left _), part.waiters, part.ended, part.reaper, part.foreign⟩

theorem withReaper (part : Part own id ν idle d e) (reaper? : Option Reaper) :
    Part own id ν idle { d with reaper? } { e with reaper? } :=
  ⟨part.twins, part.waiters, part.ended, rfl, part.foreign⟩

theorem release (part : Part own id ν (t :: idle) d e) :
    Part own id ν idle { d with registry := d.registry.release t }
      { e with registry := e.registry.release (ν.ticket t) } :=
  part.withRegistry (part.twins.perm List.perm_middle).release (release_ages part.twins.left t).serial

theorem release_foreign (part : Part own id ν idle d e) (foreign : ν.Foreign id d.registry.nextSerial t) :
    Part own id ν idle { d with registry := d.registry.release t } e :=
  part.withRegistry (part.twins.release_aside foreign) (release_ages part.twins.left t).serial

theorem add (part : Part own id ν idle d e) (serial : r.nextSerial = d.registry.nextSerial + 1)
    (twins : Twins id (ν.add d.registry.nextSerial e.registry.nextSerial)
      (t :: ((d.waiters.filter (own ·.name)).map (·.ticket) ++ idle)) r q) :
    Part own id (ν.add d.registry.nextSerial e.registry.nextSerial) (t :: idle) { d with registry := r }
      { e with registry := q } := by
  refine ⟨twins.perm List.perm_middle.symm, ?_, part.ended, part.reaper, fun w member name => ?_⟩
  · rw [part.waiters]
    refine List.map_congr_left fun w member => ?_
    have issued := part.twins.first w.ticket (List.mem_append_left _ (List.mem_map_of_mem member))
    rw [Numbering.waiter, Numbering.waiter, Numbering.add_ticket_of_lt issued.before]
  · show (ν.add _ _).Foreign id r.nextSerial w.ticket
    rw [serial]
    exact (part.foreign w member name).add

/-! ### Callers that come and go -/

theorem enter (part : Part own id ν (t :: idle) d e) {name : String} (mine : own name = true) (until_ : Nat) :
    Part own id ν idle (d.enter name t until_) (e.enter name (ν.ticket t) until_) := by
  have seats : (d.waiters ++ [(⟨name, t, t.limit until_⟩ : Waiter)]).filter (own ·.name) =
      d.waiters.filter (own ·.name) ++ [⟨name, t, t.limit until_⟩] := filter_concat_of_pos d.waiters mine
  unfold Desk.enter
  refine ⟨?_, ?_, part.ended, part.reaper, ?_⟩
  · dsimp only
    rw [seats, List.map_append, List.append_assoc]
    exact part.twins
  · dsimp only
    rw [seats, List.map_append, part.waiters]
    rfl
  · intro w member name
    rcases List.mem_append.mp member with before | last
    · exact part.foreign w before name
    · obtain rfl := List.mem_singleton.mp last
      cases mine.symm.trans name

theorem enter_foreign (part : Part own id ν idle d e) {name : String} (other : own name = false)
    (foreign : ν.Foreign id d.registry.nextSerial t) (until_ : Nat) :
    Part own id ν idle (d.enter name t until_) e := by
  have seats : (d.waiters ++ [(⟨name, t, t.limit until_⟩ : Waiter)]).filter (own ·.name) =
      d.waiters.filter (own ·.name) := filter_concat_of_neg d.waiters other
  unfold Desk.enter
  refine ⟨?_, ?_, part.ended, part.reaper, ?_⟩
  · dsimp only
    rw [seats]
    exact part.twins
  · dsimp only
    rw [seats]
    exact part.waiters
  · intro w member name
    rcases List.mem_append.mp member with before | last
    · exact part.foreign w before name
    · obtain rfl := List.mem_singleton.mp last
      exact foreign

theorem mine_of_own (part : Part own id ν idle d e) (member : w ∈ d.waiters) (mine : own w.name = true) :
    ν.mine w.ticket.serial :=
  part.twins.mine _ (List.mem_append_left _ (List.mem_map_of_mem (List.mem_filter.mpr ⟨member, mine⟩)))

/-- The callers with a serial of the id are own callers, and the other desk knows them by another serial. -/
theorem serial_iff (part : Part own id ν idle d e) {serial : Nat} (mine : ν.mine serial) (member : w ∈ d.waiters) :
    (w.ticket.serial = serial → own w.name = true) ∧
      (own w.name = true → (ν.anew w.ticket.serial = ν.anew serial ↔ w.ticket.serial = serial)) := by
  constructor
  · rintro rfl
    by_contra other
    exact (part.foreign w member (Bool.eq_false_iff.mpr other)).mine mine
  · intro name
    refine ⟨fun same => ?_, fun same => congrArg ν.anew same⟩
    exact part.twins.fits.inj _ _ (part.mine_of_own member name) mine same

/-- The caller with a serial of the id is found at both desks, or at none. -/
theorem abandon (part : Part own id ν idle d e) {serial : Nat} (mine : ν.mine serial) :
    (d.abandon? serial = none ∧ e.abandon? (ν.anew serial) = none) ∨
      ∃ d' e', d.abandon? serial = some d' ∧ e.abandon? (ν.anew serial) = some e' ∧ Part own id ν idle d' e' ∧
        d.registry.nextSerial ≤ d'.registry.nextSerial := by
  have whole : d.waiters.find? (·.ticket.serial == serial) =
      (d.waiters.filter (own ·.name)).find? (·.ticket.serial == serial) := by
    rw [List.find?_filter]
    refine find?_congr fun w member => ?_
    have name := (part.serial_iff mine member).1
    by_cases same : w.ticket.serial = serial
    · simp [same, name same]
    · simp [same]
  have there : e.waiters.find? (·.ticket.serial == ν.anew serial) =
      ((d.waiters.filter (own ·.name)).find? (·.ticket.serial == serial)).map ν.waiter := by
    rw [part.waiters, List.find?_map]
    congr 1
    refine find?_congr fun w member => ?_
    obtain ⟨inside, name⟩ := List.mem_filter.mp member
    have same := (part.serial_iff mine inside).2 name
    exact Bool.eq_iff_iff.mpr (beq_iff_eq.trans (same.trans beq_iff_eq.symm))
  unfold abandon?
  rw [whole, there]
  cases found : (d.waiters.filter (own ·.name)).find? (·.ticket.serial == serial) with
  | none => exact Or.inl ⟨rfl, rfl⟩
  | some w =>
    refine Or.inr ⟨_, _, rfl, rfl, ?_, (release_ages part.twins.left w.ticket).serial⟩
    obtain ⟨rest, same, fewer⟩ := exists_perm_of_find? found
    have seats : (d.waiters.filter (·.ticket.serial != serial)).filter (own ·.name) =
        (d.waiters.filter (own ·.name)).filter (·.ticket.serial != serial) := List.filter_comm ..
    have others : e.waiters.filter (·.ticket.serial != ν.anew serial) =
        ((d.waiters.filter (own ·.name)).filter (·.ticket.serial != serial)).map ν.waiter := by
      rw [part.waiters, List.filter_map]
      refine congrArg _ (List.filter_congr fun v member => ?_)
      obtain ⟨inside, name⟩ := List.mem_filter.mp member
      have same := (part.serial_iff mine inside).2 name
      exact Bool.eq_iff_iff.mpr (bne_iff_ne.trans (same.not.trans bne_iff_ne.symm))
    have released : Twins id ν (rest.map (·.ticket) ++ idle) (d.registry.release w.ticket)
        (e.registry.release (ν.ticket w.ticket)) :=
      (part.twins.perm ((same.map _).append_right idle)).release
    refine ⟨?_, ?_, part.ended, part.reaper, fun v inside name => ?_⟩
    · dsimp only
      rw [seats]
      exact released.sublist ((fewer.map _).append_right idle)
    · dsimp only
      rw [seats]
      exact others
    · have before := part.foreign v (List.mem_of_mem_filter inside) name
      exact before.mono (release_ages part.twins.left w.ticket).serial

theorem abandon_foreign (part : Part own id ν idle d e) {serial : Nat} (foreign : ¬ν.mine serial) {d' : Desk}
    (gone : d.abandon? serial = some d') :
    Part own id ν idle d' e ∧ d.registry.nextSerial ≤ d'.registry.nextSerial := by
  unfold abandon? at gone
  split at gone
  · rename_i w found
    obtain rfl := Option.some.inj gone
    have member := List.mem_of_find?_eq_some found
    have same : w.ticket.serial = serial := by simpa using List.find?_some found
    have other : own w.name = false := by
      refine Bool.eq_false_iff.mpr fun mine => foreign ?_
      rw [← same]
      exact part.mine_of_own member mine
    have released := part.release_foreign (part.foreign w member other)
    have seats : (d.waiters.filter (·.ticket.serial != serial)).filter (own ·.name) =
        d.waiters.filter (own ·.name) := by
      rw [List.filter_filter]
      refine List.filter_congr fun v inside => ?_
      cases mine : own v.name with
      | false => rfl
      | true =>
        have different : v.ticket.serial ≠ serial := by
          rintro rfl
          exact foreign (part.mine_of_own inside mine)
        simpa using different
    refine ⟨⟨?_, ?_, part.ended, part.reaper, ?_⟩, (release_ages part.twins.left w.ticket).serial⟩
    · dsimp only
      rw [seats]
      exact released.twins
    · dsimp only
      rw [seats]
      exact part.waiters
    · exact fun v inside name => released.foreign v (List.mem_of_mem_filter inside) name
  · cases gone

end Part

end Desk

end SoapRelay
