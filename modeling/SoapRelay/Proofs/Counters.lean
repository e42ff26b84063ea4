import SoapRelay.Proofs.Outcome

/-!
# Counters conserve calls

What each operation counts, and what it makes of the number of pending calls. In every run the calls
that were registered are those that were completed, timed out or cancelled and those that are pending.
-/

namespace SoapRelay

namespace RegistryStats

/-- The calls that have ended, as the counters have it. -/
def ended (s : RegistryStats) : UInt64 :=
  s.completed + s.timedOut + s.cancelled

theorem ended_completed (s : RegistryStats) : ended { s with completed := s.completed + 1 } = s.ended + 1 := by
  show s.completed + 1 + s.timedOut + s.cancelled = s.completed + s.timedOut + s.cancelled + 1
  ac_rfl

theorem ended_timedOut (s : RegistryStats) (n : UInt64) : ended { s with timedOut := s.timedOut + n } = s.ended + n := by
  show s.completed + (s.timedOut + n) + s.cancelled = s.completed + s.timedOut + s.cancelled + n
  ac_rfl

theorem ended_cancelled (s : RegistryStats) : ended { s with cancelled := s.cancelled + 1 } = s.ended + 1 :=
  UInt64.add_assoc _ _ _ |>.symm

end RegistryStats

namespace Registry

variable {r r' : Registry} {id : String} {p : PendingCall} {now : Nat}

theorem pending_eq_length (r : Registry) : r.pending = r.entries.length := by
  have total : ∀ (sizes : List Nat) (n : Nat), sizes.foldl (· + ·) n = n + sizes.sum := by
    intro sizes
    induction sizes with
    | nil => exact fun n => rfl
    | cons size sizes ih =>
      intro n
      rw [List.foldl_cons, ih, List.sum_cons, Nat.add_assoc]
  rw [pending, entries, List.length_flatMap, total, Nat.zero_add]
  rfl

/-! ### What is counted -/

theorem stats_register (r : Registry) (now : Nat) (id : CallId) (deadline : Nat) :
    (r.register now id deadline).2.stats =
      if r.contains id.text then r.stats else { r.stats with registered := r.stats.registered + 1 } := by
  unfold register
  dsimp only
  have same : ({ r with nextSerial := r.nextSerial + 1 } : Registry).contains id.text = r.contains id.text := rfl
  rw [same]
  split
  · rfl
  · rfl

theorem register_fst (r : Registry) (now : Nat) (id : CallId) (deadline : Nat) :
    (r.register now id deadline).1 =
      if r.contains id.text then none else some ⟨id.text, r.nextSerial, deadline⟩ := by
  unfold register
  dsimp only
  have same : ({ r with nextSerial := r.nextSerial + 1 } : Registry).contains id.text = r.contains id.text := rfl
  rw [same]
  split
  · rfl
  · rfl

theorem register_refused {id : CallId} {deadline : Nat} (refused : (r.register now id deadline).1 = none) :
    (r.register now id deadline).2 = { r with nextSerial := r.nextSerial + 1 } := by
  unfold register at refused ⊢
  dsimp only at refused ⊢
  split at refused
  · rename_i found
    rw [if_pos found]
  · cases refused

theorem stats_resolve (r : Registry) (now : Nat) (id reply : String) :
    (r.resolve now id reply).2.stats = match r.find? id with
      | none => { r.stats with late := r.stats.late + 1 }
      | some p => { r.stats.addRoundTrip (1000 * (now - p.created)) with completed := r.stats.completed + 1 } := by
  rw [resolve]
  cases r.find? id with
  | none => rfl
  | some p => rfl

theorem stats_cancel (r : Registry) (id : String) :
    (r.cancel id).2.stats =
      if r.contains id then { r.stats with cancelled := r.stats.cancelled + 1 } else r.stats := by
  rw [cancel, contains]
  cases r.find? id with
  | none => rfl
  | some p => rfl

theorem stats_sweep (r : Registry) (now : Nat) :
    (r.sweep now).2.stats =
      { r.stats with timedOut := r.stats.timedOut + UInt64.ofNat (r.expired now).length } :=
  rfl

theorem stats_await (r : Registry) (t : Ticket) (until_ now : Nat) :
    (r.await t until_ now).2.stats =
      if r.endingOf? t = none ∧ until_ ≤ now ∧ r.owns t then { r.stats with timedOut := r.stats.timedOut + 1 }
      else r.stats := by
  unfold await
  cases r.endingOf? t with
  | some ending => rfl
  | none =>
    by_cases late : until_ ≤ now
    · by_cases own : r.owns t = true
      · simp only [late, own, if_true, and_self]
        rfl
      · simp only [late, own, if_true, and_false, if_false, Bool.false_eq_true]
    · simp only [late, if_false, false_and, and_false]

theorem stats_release (r : Registry) (t : Ticket) :
    (r.release t).stats =
      if r.owns t then { r.stats with cancelled := r.stats.cancelled + 1 } else r.stats := by
  unfold release
  split
  · rfl
  · rfl

/-! ### How many calls are pending -/

def Balanced (r : Registry) : Prop :=
  r.stats.registered = r.stats.ended + UInt64.ofNat r.pending

theorem create_balanced (shards : Nat) (hash : String → UInt64) : (create shards hash).Balanced := by
  rw [Balanced, pending_eq_length, entries_create]
  rfl

section

variable {stays : String × PendingCall → Bool} {new : List (Nat × Ending)} {kept : Nat × Ending → Bool}

/-- The calls that leave are counted as ended, once each. -/
theorem Sheds.balanced (sheds : r.Sheds r' stays new kept) (before : r.Balanced)
    (registered : r'.stats.registered = r.stats.registered)
    (counted : r'.stats.ended = r.stats.ended + UInt64.ofNat (r.entries.filter fun e => !stays e).length) :
    r'.Balanced := by
  have parts : r.pending = (r.entries.filter fun e => !stays e).length + r'.pending := by
    rw [pending_eq_length, pending_eq_length, sheds.entries_eq, Nat.add_comm]
    exact List.length_eq_length_filter_add stays
  rw [Balanced, registered, before, counted, parts, UInt64.ofNat_add, UInt64.add_assoc]

theorem Sheds.balanced_every (sheds : r.Sheds r' every new kept) (before : r.Balanced)
    (registered : r'.stats.registered = r.stats.registered) (counted : r'.stats.ended = r.stats.ended) :
    r'.Balanced := by
  have none : (r.entries.filter fun e => !every e) = [] := List.filter_eq_nil_iff.mpr fun _ _ => nofun
  refine sheds.balanced before registered ?_
  rw [none, counted]
  exact (UInt64.add_zero _).symm

/-- Of the calls one is under an id that is pending. -/
theorem length_removed (valid : r.Valid) (pending : (id, p) ∈ r.entries) :
    (r.entries.filter fun e => !(e.1 != id)).length = 1 := by
  have once : (r.entries.map (·.1)).count id = 1 :=
    List.count_eq_one_of_mem valid.ids (List.mem_map_of_mem pending)
  rw [List.count, List.countP_map, List.countP_eq_length_filter] at once
  rw [← once]
  congr 2
  funext e
  exact Bool.not_not _

theorem length_swept (r : Registry) (now : Nat) :
    (r.entries.filter fun e => !early now e).length = (r.expired now).length := by
  rw [expired_eq, List.filter_map, List.length_map]
  congr 2
  funext e
  exact Bool.not_not _

theorem Sheds.balanced_one (sheds : r.Sheds r' (·.1 != id) new kept) (valid : r.Valid) (pending : (id, p) ∈ r.entries)
    (before : r.Balanced) (registered : r'.stats.registered = r.stats.registered)
    (counted : r'.stats.ended = r.stats.ended + 1) : r'.Balanced := by
  refine sheds.balanced before registered ?_
  rw [length_removed valid pending, counted]
  rfl

end

/-! ### Every operation keeps the balance -/

theorem register_balanced (valid : r.Valid) (before : r.Balanced) (now : Nat) (id : CallId) (deadline : Nat) :
    (r.register now id deadline).2.Balanced := by
  have stats := stats_register r now id deadline
  rcases register_cases valid.toShaped now id deadline with ⟨p, pending, _, sheds⟩ | ⟨absent, _, enters⟩
  · have found : r.contains id.text = true := by
      rw [contains, (find?_eq_some_iff valid.toShaped).mpr pending]
      rfl
    rw [if_pos found] at stats
    exact sheds.balanced_every before (by rw [stats]) (by rw [stats])
  · have missing : ¬r.contains id.text = true := by
      rw [contains, (find?_eq_none_iff valid.toShaped).mpr absent]
      exact nofun
    rw [if_neg missing] at stats
    have more : (r.register now id deadline).2.pending = r.pending + 1 := by
      rw [pending_eq_length, pending_eq_length, enters.entries.length_eq, List.length_cons]
    rw [Balanced, stats, more, UInt64.ofNat_add, ← UInt64.add_assoc]
    exact congrArg (· + 1) before

theorem resolve_balanced (valid : r.Valid) (before : r.Balanced) (now : Nat) (id reply : String) :
    (r.resolve now id reply).2.Balanced := by
  have stats := stats_resolve r now id reply
  rcases resolve_cases valid.toShaped now id reply with ⟨p, pending, _, sheds⟩ | ⟨absent, _, sheds⟩
  · rw [(find?_eq_some_iff valid.toShaped).mpr pending] at stats
    refine sheds.balanced_one valid pending before ?_ ?_
    · rw [stats]
      rfl
    · rw [stats]
      exact RegistryStats.ended_completed (r.stats.addRoundTrip (1000 * (now - p.created)))
  · rw [(find?_eq_none_iff valid.toShaped).mpr absent] at stats
    exact sheds.balanced_every before (by rw [stats]) (by rw [stats]; rfl)

theorem cancel_balanced (valid : r.Valid) (before : r.Balanced) (id : String) : (r.cancel id).2.Balanced := by
  rcases cancel_cases valid.toShaped id with ⟨p, pending, _, sheds⟩ | ⟨_, _, same⟩
  · have stats := stats_cancel r id
    rw [contains, (find?_eq_some_iff valid.toShaped).mpr pending, Option.isSome_some, if_pos rfl] at stats
    refine sheds.balanced_one valid pending before (by rw [stats]) ?_
    rw [stats]
    exact RegistryStats.ended_cancelled r.stats
  · rw [same]
    exact before

theorem sweep_balanced (valid : r.Valid) (before : r.Balanced) (now : Nat) : (r.sweep now).2.Balanced := by
  refine (sweep_sheds valid now).balanced before rfl ?_
  rw [length_swept, stats_sweep]
  exact RegistryStats.ended_timedOut r.stats _

theorem await_balanced (valid : r.Valid) (before : r.Balanced) (t : Ticket) (until_ now : Nat) :
    (r.await t until_ now).2.Balanced := by
  have stats := stats_await r t until_ now
  rcases await_cases valid t until_ now with
    ⟨ending, left, _, sheds⟩ |
      ⟨absent, ⟨late, _, ⟨p, pending, same⟩, sheds⟩ | ⟨_, told, _⟩ | ⟨_, waits⟩⟩
  · have filled := (endingOf?_eq_some_iff valid).mpr left
    rw [filled, if_neg fun no => nomatch no.1] at stats
    exact sheds.balanced_every before (by rw [stats]) (by rw [stats])
  · have empty : r.endingOf? t = none := by
      refine Option.eq_none_iff_forall_ne_some.mpr fun ending found => ?_
      exact absent ending ((endingOf?_eq_some_iff valid).mp found)
    have own := (owns_iff valid.toShaped).mpr ⟨p, pending, same⟩
    rw [if_pos ⟨empty, late, own⟩] at stats
    refine sheds.balanced_one valid pending before (by rw [stats]) ?_
    rw [stats]
    exact RegistryStats.ended_timedOut r.stats 1
  · rw [told]
    exact before
  · rw [waits]
    exact before

theorem release_balanced (valid : r.Valid) (before : r.Balanced) (t : Ticket) : (r.release t).Balanced := by
  have stats := stats_release r t
  rcases release_cases valid t with ⟨p, pending, same, sheds⟩ | ⟨gone, sheds⟩
  · rw [if_pos ((owns_iff valid.toShaped).mpr ⟨p, pending, same⟩)] at stats
    refine sheds.balanced_one valid pending before (by rw [stats]) ?_
    rw [stats]
    exact RegistryStats.ended_cancelled r.stats
  · rw [if_neg fun own => gone ((owns_iff valid.toShaped).mp own)] at stats
    exact sheds.balanced_every before (by rw [stats]) (by rw [stats])

end Registry

namespace Hall

open Registry

variable {x : Hall} {op : Op} {ops : List Op}

/-! ### An operation of a hall is one operation on its registry, or none -/

theorem register_acts (x : Hall) (h : Handle) (deadline : Nat) :
    ((x.register h deadline).1 = .taken ∧ (x.register h deadline).2 = x) ∨
      (x.register h deadline).2.registry = (x.registry.register x.now h.id deadline).2 ∧
        (x.register h deadline).1 = match (x.registry.register x.now h.id deadline).1 with
          | none => .duplicate
          | some ticket => .registered ticket := by
  unfold register
  split
  · exact Or.inl ⟨rfl, rfl⟩
  · refine Or.inr ?_
    split
    · rename_i refused
      rw [refused]
      exact ⟨rfl, rfl⟩
    · rename_i accepted
      rw [accepted]
      exact ⟨rfl, rfl⟩

theorem wait_acts (x : Hall) (h : Handle) (until? : Option Nat) : (x.wait h until?).2.registry = x.registry := by
  unfold wait
  split
  · rfl
  · rfl

theorem look_acts (x : Hall) (h : Handle) : (x.look h).2.registry = x.registry ∨
    ∃ t until_, (x.look h).2.registry = (x.registry.await t until_ x.now).2 := by
  unfold look
  split
  · rename_i ticket limit _
    refine Or.inr ⟨ticket, limit, ?_⟩
    split
    · rename_i told
      rw [told]
      rfl
    · rename_i waits
      rw [waits]
      rfl
  · exact Or.inl rfl

theorem drop_acts (x : Hall) (h : Handle) : (x.drop h).2.registry = x.registry ∨
    ∃ t, (x.drop h).2.registry = x.registry.release t := by
  unfold drop
  split
  · exact Or.inr ⟨_, rfl⟩
  · exact Or.inl rfl

theorem step_keeps {kept : Registry → Prop} (here : kept x.registry)
    (registers : ∀ id deadline, kept (x.registry.register x.now id deadline).2)
    (resolves : ∀ id reply, kept (x.registry.resolve x.now id reply).2)
    (cancels : ∀ id, kept (x.registry.cancel id).2) (sweeps : kept (x.registry.sweep x.now).2)
    (awaits : ∀ t until_, kept (x.registry.await t until_ x.now).2) (releases : ∀ t, kept (x.registry.release t))
    (op : Op) : kept (x.step op).2.registry := by
  cases op with
  | register h deadline =>
    show kept (x.register h deadline).2.registry
    rcases register_acts x h deadline with ⟨_, same⟩ | ⟨acts, _⟩
    · rw [same]
      exact here
    · rw [acts]
      exact registers h.id deadline
  | wait h until? =>
    show kept (x.wait h until?).2.registry
    rw [wait_acts]
    exact here
  | look h =>
    show kept (x.look h).2.registry
    rcases look_acts x h with same | ⟨t, until_, acts⟩
    · rw [same]
      exact here
    · rw [acts]
      exact awaits t until_
  | drop h =>
    show kept (x.drop h).2.registry
    rcases drop_acts x h with same | ⟨t, acts⟩
    · rw [same]
      exact here
    · rw [acts]
      exact releases t
  | resolve id reply => exact resolves id reply
  | cancel id => exact cancels id
  | sweep => exact sweeps
  | pass time => exact here

theorem after_balanced (sound : x.Sound) (balanced : x.registry.Balanced) (ops : List Op) :
    (x.after ops).registry.Balanced := by
  induction ops generalizing x with
  | nil => exact balanced
  | cons op ops ih =>
    refine ih (step_sound sound op) (step_keeps balanced ?_ ?_ ?_ ?_ ?_ ?_ op)
    · exact register_balanced sound.valid balanced x.now
    · exact resolve_balanced sound.valid balanced x.now
    · exact cancel_balanced sound.valid balanced
    · exact sweep_balanced sound.valid balanced x.now
    · exact fun t until_ => await_balanced sound.valid balanced t until_ x.now
    · exact release_balanced sound.valid balanced

/-! ### What the counters count -/

namespace Event

def registers (e : Event) : Bool :=
  match e.op, e.answer with
  | .register _ _, .registered _ => true
  | _, _ => false

/-- A reply came in and found a call pending, or none. -/
def resolves (found : Bool) (e : Event) : Bool :=
  match e.op, e.answer with
  | .resolve _ _, .flag yes => yes == found
  | _, _ => false

end Event

/-- How many events of a kind there are, as far as a counter can tell. -/
def tally (kind : Event → Bool) (events : List Event) : UInt64 :=
  UInt64.ofNat (events.countP kind)

theorem tally_cons (kind : Event → Bool) (e : Event) (events : List Event) :
    tally kind (e :: events) = (if kind e then 1 else 0) + tally kind events := by
  rw [tally, List.countP_cons, Nat.add_comm, UInt64.ofNat_add]
  split
  · rfl
  · rfl

/-- What is counted when calls and replies come in. -/
structure Counts (before after : RegistryStats) (events : List Event) : Prop where
  registered : after.registered = before.registered + tally Event.registers events
  completed : after.completed = before.completed + tally (Event.resolves true) events
  late : after.late = before.late + tally (Event.resolves false) events

theorem tally_singleton (kind : Event → Bool) (e : Event) : tally kind [e] = if kind e then 1 else 0 := by
  rw [tally_cons]
  exact UInt64.add_zero _

theorem Counts.nil (s : RegistryStats) : Counts s s [] :=
  ⟨(UInt64.add_zero _).symm, (UInt64.add_zero _).symm, (UInt64.add_zero _).symm⟩

theorem Counts.cons {s t u : RegistryStats} {e : Event} {events : List Event} (first : Counts s t [e])
    (rest : Counts t u events) : Counts s u (e :: events) := by
  refine ⟨?_, ?_, ?_⟩
  · rw [rest.registered, first.registered, tally_singleton, tally_cons, UInt64.add_assoc]
  · rw [rest.completed, first.completed, tally_singleton, tally_cons, UInt64.add_assoc]
  · rw [rest.late, first.late, tally_singleton, tally_cons, UInt64.add_assoc]

/-- An event that is of no kind that is counted. -/
theorem Counts.other {s t : RegistryStats} {e : Event} (registers : e.registers = false)
    (resolves : ∀ found, e.resolves found = false) (registered : t.registered = s.registered)
    (completed : t.completed = s.completed) (late : t.late = s.late) : Counts s t [e] := by
  refine ⟨?_, ?_, ?_⟩
  · rw [registered, tally_singleton, registers]
    exact (UInt64.add_zero _).symm
  · rw [completed, tally_singleton, resolves]
    exact (UInt64.add_zero _).symm
  · rw [late, tally_singleton, resolves]
    exact (UInt64.add_zero _).symm

theorem register_counts (x : Hall) (h : Handle) (deadline : Nat) :
    Counts x.registry.stats (x.register h deadline).2.registry.stats [x.event (.register h deadline)] := by
  have answer : (x.event (.register h deadline)).answer = (x.register h deadline).1 := rfl
  rcases register_acts x h deadline with ⟨taken, same⟩ | ⟨acts, told⟩
  · refine .other ?_ (fun _ => rfl) (by rw [same]) (by rw [same]) (by rw [same])
    unfold Event.registers
    rw [answer, taken]
    rfl
  · rw [acts, stats_register]
    rw [register_fst] at told
    split
    · rename_i found
      rw [if_pos found] at told
      refine .other ?_ (fun _ => rfl) rfl rfl rfl
      unfold Event.registers
      rw [answer, told]
      rfl
    · rename_i missing
      rw [if_neg missing] at told
      have registers : (x.event (.register h deadline)).registers = true := by
        unfold Event.registers
        rw [answer, told]
        rfl
      refine ⟨?_, ?_, ?_⟩
      · rw [tally_singleton, registers]
        rfl
      · exact (UInt64.add_zero _).symm
      · exact (UInt64.add_zero _).symm

theorem resolve_counts (x : Hall) (id reply : String) :
    Counts x.registry.stats (x.registry.resolve x.now id reply).2.stats [x.event (.resolve id reply)] := by
  have answer : (x.event (.resolve id reply)).answer = .flag (x.registry.find? id).isSome := by
    show Answer.flag (x.registry.resolve x.now id reply).1 = _
    rw [resolve]
    cases x.registry.find? id with
    | none => rfl
    | some p => rfl
  have registers : (x.event (.resolve id reply)).registers = false := rfl
  have resolves : ∀ found, (x.event (.resolve id reply)).resolves found = ((x.registry.find? id).isSome == found) := by
    intro found
    unfold Event.resolves
    rw [answer]
    rfl
  rw [stats_resolve]
  cases found : x.registry.find? id with
  | none =>
    rw [found] at resolves
    refine ⟨?_, ?_, ?_⟩
    · rw [tally_singleton, registers]
      exact (UInt64.add_zero _).symm
    · rw [tally_singleton, resolves]
      exact (UInt64.add_zero _).symm
    · rw [tally_singleton, resolves]
      rfl
  | some p =>
    rw [found] at resolves
    refine ⟨?_, ?_, ?_⟩
    · rw [tally_singleton, registers]
      exact (UInt64.add_zero _).symm
    · rw [tally_singleton, resolves]
      rfl
    · rw [tally_singleton, resolves]
      exact (UInt64.add_zero _).symm

theorem step_counts (x : Hall) (op : Op) : Counts x.registry.stats (x.step op).2.registry.stats [x.event op] := by
  cases op with
  | register h deadline => exact register_counts x h deadline
  | resolve id reply => exact resolve_counts x id reply
  | wait h until? =>
    have same : (x.step (.wait h until?)).2.registry = x.registry := wait_acts x h until?
    rw [same]
    exact .other rfl (fun _ => rfl) rfl rfl rfl
  | look h =>
    rcases look_acts x h with same | ⟨t, until_, acts⟩
    · have same : (x.step (.look h)).2.registry = x.registry := same
      rw [same]
      exact .other rfl (fun _ => rfl) rfl rfl rfl
    · have acts : (x.step (.look h)).2.registry = (x.registry.await t until_ x.now).2 := acts
      rw [acts, stats_await]
      split
      · exact .other rfl (fun _ => rfl) rfl rfl rfl
      · exact .other rfl (fun _ => rfl) rfl rfl rfl
  | drop h =>
    rcases drop_acts x h with same | ⟨t, acts⟩
    · have same : (x.step (.drop h)).2.registry = x.registry := same
      rw [same]
      exact .other rfl (fun _ => rfl) rfl rfl rfl
    · have acts : (x.step (.drop h)).2.registry = x.registry.release t := acts
      rw [acts, stats_release]
      split
      · exact .other rfl (fun _ => rfl) rfl rfl rfl
      · exact .other rfl (fun _ => rfl) rfl rfl rfl
  | cancel id =>
    have acts : (x.step (.cancel id)).2.registry = (x.registry.cancel id).2 := rfl
    rw [acts, stats_cancel]
    split
    · exact .other rfl (fun _ => rfl) rfl rfl rfl
    · exact .other rfl (fun _ => rfl) rfl rfl rfl
  | sweep => exact .other rfl (fun _ => rfl) rfl rfl rfl
  | pass time => exact .other rfl (fun _ => rfl) rfl rfl rfl

theorem after_counts (x : Hall) (ops : List Op) :
    Counts x.registry.stats (x.after ops).registry.stats (x.events ops) := by
  induction ops generalizing x with
  | nil => exact .nil _
  | cons op ops ih => exact (step_counts x op).cons (ih (x.step op).2)

/-- A refusal uses up a serial and leaves everything else as it was. -/
theorem duplicate_leaves {h : Handle} {deadline : Nat} (refused : (x.step (.register h deadline)).1 = .duplicate) :
    (x.step (.register h deadline)).2 =
      x.withRegistry { x.registry with nextSerial := x.registry.nextSerial + 1 } := by
  have refused : (x.register h deadline).1 = .duplicate := refused
  show (x.register h deadline).2 = _
  unfold register at refused ⊢
  cases free : x.holds h with
  | some hold =>
    rw [free] at refused
    cases refused
  | none =>
    rw [free] at refused
    dsimp only at refused ⊢
    have after : (x.registry.register x.now h.id deadline).1 = none → (x.registry.register x.now h.id deadline).2 =
        { x.registry with nextSerial := x.registry.nextSerial + 1 } := register_refused
    cases answer : x.registry.register x.now h.id deadline with
    | mk ticket? r =>
      rw [answer] at refused after
      cases ticket? with
      | none =>
        dsimp only
        rw [show r = _ from after rfl]
      | some ticket => cases refused

/-! ### Conservation -/

/-- In every run the calls that were registered are those that ended and those that are pending, the
completed and the late replies are those that found a call and those that found none, and a refused
registration counts for nothing. -/
theorem counters_conserve_calls (shards : Nat) (hash : String → UInt64) (ops : List Op) :
    let x := (start shards hash).after ops
    let stats := x.registry.stats
    let events := (start shards hash).events ops
    stats.registered = stats.completed + stats.timedOut + stats.cancelled + UInt64.ofNat x.registry.pending ∧
      stats.registered = UInt64.ofNat (events.countP Event.registers) ∧
      stats.completed = UInt64.ofNat (events.countP (Event.resolves true)) ∧
      stats.late = UInt64.ofNat (events.countP (Event.resolves false)) ∧
      ∀ h deadline, (x.step (.register h deadline)).1 = .duplicate →
        (x.step (.register h deadline)).2 =
          x.withRegistry { x.registry with nextSerial := x.registry.nextSerial + 1 } := by
  dsimp only
  have counts := after_counts (start shards hash) ops
  refine ⟨?_, ?_, ?_, ?_, fun h deadline => duplicate_leaves⟩
  · exact after_balanced (start_sound shards hash) (create_balanced shards hash) ops
  · exact counts.registered.trans (UInt64.zero_add _)
  · exact counts.completed.trans (UInt64.zero_add _)
  · exact counts.late.trans (UInt64.zero_add _)

/-- The first caller goes away when its id is in use again. -/
def outlived : List Op :=
  [.register ⟨again, 1⟩ 9, .resolve "again" "one", .register ⟨again, 2⟩ 9, .drop ⟨again, 1⟩,
    .resolve "nobody" "two"]

theorem counters_conserve_calls_of_outlived :
    let x := (start 1 mix).after outlived
    x.registry.stats.registered = 2 ∧ x.registry.stats.completed = 1 ∧ x.registry.stats.late = 1 ∧
      x.registry.stats.timedOut + x.registry.stats.cancelled + UInt64.ofNat x.registry.pending = 1 ∧
      (x.step (.register ⟨again, 3⟩ 9)).1 = .duplicate ∧
      (x.step (.register ⟨again, 3⟩ 9)).2.registry.stats = x.registry.stats := by
  obtain ⟨balance, registered, completed, late, refused⟩ := counters_conserve_calls 1 mix outlived
  have two : ((start 1 mix).events outlived).countP Event.registers = 2 := by decide +kernel
  have one : ((start 1 mix).events outlived).countP (Event.resolves true) = 1 := by decide +kernel
  have missed : ((start 1 mix).events outlived).countP (Event.resolves false) = 1 := by decide +kernel
  have duplicate : (((start 1 mix).after outlived).step (.register ⟨again, 3⟩ 9)).1 = .duplicate := by decide +kernel
  rw [two] at registered
  rw [one] at completed
  rw [missed] at late
  refine ⟨registered, completed, late, ?_, duplicate, ?_⟩
  · rw [registered, completed, UInt64.add_assoc, UInt64.add_assoc] at balance
    rw [UInt64.add_assoc]
    have lifted : (1 : UInt64) + 1 = 1 + _ := balance
    exact (UInt64.add_right_inj 1).mp lifted.symm
  · rw [refused _ _ duplicate]
    rfl

end Hall

end SoapRelay
