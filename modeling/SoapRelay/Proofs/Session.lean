import SoapRelay.Proofs.Desk
import SoapRelay.Proofs.Outcome
import SoapRelay.Proofs.Watch
import SoapRelay.Registry.Session

/-!
# Sessions are runs of a watch

Whatever a session on a registry does, with callers that are served in turn and a reaper that sweeps by
itself, some run of a watch does too, and the waits that end in the session are the ones whose callers
are told so in its hall. Since a session goes from timer to timer and serves everybody at each, the clock
of that run is never late.
-/

namespace SoapRelay

namespace Hall

open Registry

variable {x : Hall} {now time : Nat} {r r' : Registry} {reaper? : Option Reaper} {out others : List Hold} {hold : Hold}
  {t : Ticket} {limit : Nat}

/-! ### Callers that are there -/

/-- At some time a hall has this registry, and these callers are there. Nobody else waits. -/
structure Houses (x : Hall) (now : Nat) (r : Registry) (out : List Hold) : Prop where
  sound : x.Sound
  tagged : ∀ h hold, x.holds h = some hold → h.tag = hold.ticket.serial
  now : x.now = now
  registry : x.registry = r
  held : ∀ hold ∈ out, ∃ h, x.holds h = some hold
  waits : ∀ h hold, x.holds h = some hold → hold.until? ≠ none → hold ∈ out
  apart : (out.map (·.ticket.serial)).Nodup

namespace Houses

theorem start (shards : Nat) (hash : String → UInt64) :
    (Hall.start shards hash).Houses 0 (.create shards hash) [] := by
  refine ⟨start_sound shards hash, ?_, rfl, rfl, nofun, ?_, List.nodup_nil⟩
  · intro h hold held
    cases held
  · intro h hold held
    cases held

/-- Callers that do not wait may be left out. -/
theorem sublist (houses : x.Houses now r out) (part : others.Sublist out)
    (waits : ∀ hold ∈ out, hold.until? ≠ none → hold ∈ others) : x.Houses now r others :=
  ⟨houses.sound, houses.tagged, houses.now, houses.registry,
    fun hold member => houses.held hold (part.subset member),
    fun h hold held waiting => waits hold (houses.waits h hold held waiting) waiting,
    (part.map _).nodup houses.apart⟩

theorem perm (houses : x.Houses now r out) (same : out.Perm others) : x.Houses now r others :=
  ⟨houses.sound, houses.tagged, houses.now, houses.registry,
    fun hold member => houses.held hold (same.mem_iff.mpr member),
    fun h hold held waiting => same.mem_iff.mp (houses.waits h hold held waiting),
    (same.map _).nodup_iff.mp houses.apart⟩

theorem still (houses : x.Houses now r out) (op : Op) (holds : (x.step op).2.holds = x.holds)
    (then_ : (x.step op).2.now = time) (registry : (x.step op).2.registry = r') :
    (x.step op).2.Houses time r' out := by
  refine ⟨step_sound houses.sound op, ?_, then_, registry, ?_, ?_, houses.apart⟩
  · rw [holds]
    exact houses.tagged
  · rw [holds]
    exact houses.held
  · rw [holds]
    exact houses.waits

/-- Another caller goes away, and nobody else. -/
theorem without (houses : x.Houses now r (hold :: others)) {h : Handle} (held : x.holds h = some hold)
    (sound : ((x.withRegistry r').withHold h none).Sound) :
    ((x.withRegistry r').withHold h none).Houses now r' others := by
  obtain ⟨new, apart⟩ := List.nodup_cons.mp houses.apart
  refine ⟨sound, ?_, houses.now, rfl, ?_, ?_, apart⟩
  · intro k other after
    rcases holds_withHold after with ⟨_, no⟩ | ⟨_, before⟩
    · cases no
    · exact houses.tagged k other before
  · intro other member
    obtain ⟨k, before⟩ := houses.held other (List.mem_cons_of_mem _ member)
    refine ⟨k, ?_⟩
    have different : k ≠ h := by
      rintro rfl
      obtain rfl := Option.some.inj (held.symm.trans before)
      exact new (List.mem_map_of_mem member)
    exact (Function.update_of_ne different _ _).trans before
  · intro k other after waiting
    rcases holds_withHold after with ⟨_, no⟩ | ⟨different, before⟩
    · cases no
    · rcases List.mem_cons.mp (houses.waits k other before waiting) with rfl | rest
      · exact absurd (houses.sound.own k h other other before held rfl) different
      · exact rest

/-- A handle with the next serial for its tag is free. -/
theorem free (houses : x.Houses now r out) (id : CallId) : x.holds ⟨id, r.nextSerial⟩ = none := by
  refine Option.eq_none_iff_forall_ne_some.mpr ?_
  intro hold taken
  have issued := houses.sound.issued _ hold taken
  have tag : r.nextSerial = hold.ticket.serial := houses.tagged _ hold taken
  rw [houses.registry] at issued
  omega

theorem duplicate (houses : x.Houses now r out) {id : CallId} {deadline : Nat}
    (refused : r.register now id deadline = (none, r')) :
    (x.step (.register ⟨id, r.nextSerial⟩ deadline)).1 = .duplicate ∧
      (x.step (.register ⟨id, r.nextSerial⟩ deadline)).2.Houses now r' out := by
  have after : x.step (.register ⟨id, r.nextSerial⟩ deadline) = (.duplicate, x.withRegistry r') := by
    simp only [step, Hall.register, houses.free id, houses.registry, houses.now, refused]
  refine ⟨congrArg Prod.fst after, houses.still _ ?_ ?_ ?_⟩
  · rw [after]
    rfl
  · rw [after]
    exact houses.now
  · rw [after]
    rfl

theorem register (houses : x.Houses now r out) {id : CallId} {deadline : Nat} {t : Ticket}
    (accepted : r.register now id deadline = (some t, r')) :
    (x.step (.register ⟨id, r.nextSerial⟩ deadline)).1 = .registered t ∧
      (x.step (.register ⟨id, r.nextSerial⟩ deadline)).2.Houses now r' (⟨t, none⟩ :: out) := by
  have free := houses.free id
  obtain ⟨sound, tagged, rfl, rfl, held, waits, apart⟩ := houses
  have serial : t.serial = x.registry.nextSerial := by
    rcases register_cases sound.valid.toShaped x.now id deadline with ⟨_, _, refused, _⟩ | ⟨_, new, _⟩
    · rw [accepted] at refused
      cases refused
    · rw [accepted] at new
      obtain rfl := Option.some.inj new
      rfl
  have after : x.step (.register ⟨id, x.registry.nextSerial⟩ deadline) =
      (.registered t, (x.withRegistry r').withHold ⟨id, x.registry.nextSerial⟩ (some ⟨t, none⟩)) := by
    simp only [step, Hall.register, free, accepted]
  have good := step_sound sound (.register ⟨id, x.registry.nextSerial⟩ deadline)
  refine ⟨congrArg Prod.fst after, ?_⟩
  rw [after] at good ⊢
  refine ⟨good, ?_, rfl, rfl, ?_, ?_, List.nodup_cons.mpr ⟨?_, apart⟩⟩
  · intro k hold there
    rcases holds_withHold there with ⟨rfl, new⟩ | ⟨_, before⟩
    · obtain rfl := Option.some.inj new
      exact serial.symm
    · exact tagged k hold before
  · intro hold member
    rcases List.mem_cons.mp member with rfl | old
    · exact ⟨_, Function.update_self _ _ _⟩
    · obtain ⟨k, there⟩ := held hold old
      refine ⟨k, (Function.update_of_ne ?_ _ _).trans there⟩
      rintro rfl
      cases free.symm.trans there
  · intro k hold there waiting
    rcases holds_withHold there with ⟨_, new⟩ | ⟨_, before⟩
    · obtain rfl := Option.some.inj new
      exact absurd rfl waiting
    · exact List.mem_cons_of_mem _ (waits k hold before waiting)
  · intro member
    obtain ⟨hold, old, same⟩ := List.mem_map.mp member
    obtain ⟨k, there⟩ := held hold old
    have issued := sound.issued k hold there
    have same : hold.ticket.serial = t.serial := same
    omega

theorem wait (houses : x.Houses now r (⟨t, none⟩ :: others)) (until? : Option Nat) : ∃ h,
    (x.step (.wait h until?)).1 = .waiting ∧ (x.step (.wait h until?)).2.Houses now r
      (⟨t, some (t.limit (until?.getD t.deadline))⟩ :: others) := by
  obtain ⟨sound, tagged, rfl, rfl, held, waits, apart⟩ := houses
  obtain ⟨h, there⟩ := held ⟨t, none⟩ (List.mem_cons_self ..)
  have after : x.step (.wait h until?) =
      (.waiting, x.withHold h (some ⟨t, some (t.limit (until?.getD t.deadline))⟩)) := by
    simp only [step, Hall.wait, there]
  have good := step_sound sound (.wait h until?)
  refine ⟨h, congrArg Prod.fst after, ?_⟩
  rw [after] at good ⊢
  refine ⟨good, ?_, rfl, rfl, ?_, ?_, apart⟩
  · intro k hold after
    rcases holds_withHold after with ⟨rfl, new⟩ | ⟨_, before⟩
    · obtain rfl := Option.some.inj new
      exact tagged k ⟨t, none⟩ there
    · exact tagged k hold before
  · intro hold member
    rcases List.mem_cons.mp member with rfl | old
    · exact ⟨h, Function.update_self _ _ _⟩
    · obtain ⟨k, before⟩ := held hold (List.mem_cons_of_mem _ old)
      refine ⟨k, (Function.update_of_ne ?_ _ _).trans before⟩
      rintro rfl
      obtain rfl := Option.some.inj (there.symm.trans before)
      exact (List.nodup_cons.mp apart).1 (List.mem_map_of_mem old)
  · intro k hold after waiting
    rcases holds_withHold after with ⟨_, new⟩ | ⟨_, before⟩
    · obtain rfl := Option.some.inj new
      exact List.mem_cons_self
    · rcases List.mem_cons.mp (waits k hold before waiting) with rfl | rest
      · exact absurd rfl waiting
      · exact List.mem_cons_of_mem _ rest

theorem told (houses : x.Houses now r (⟨t, some limit⟩ :: others)) {ending : Ending}
    (answer : r.await t limit now = (some ending, r')) : ∃ h,
    (x.step (.look h)).1 = .told ending ∧ (x.step (.look h)).2.Houses now r' others := by
  have whole := houses
  obtain ⟨sound, _, rfl, rfl, held, _, _⟩ := houses
  obtain ⟨h, there⟩ := held ⟨t, some limit⟩ (List.mem_cons_self ..)
  have after : x.step (.look h) = (.told ending, (x.withRegistry r').withHold h none) := by
    simp only [step, Hall.look, there, answer]
  have good := step_sound sound (.look h)
  refine ⟨h, congrArg Prod.fst after, ?_⟩
  rw [after] at good ⊢
  exact whole.without there good

theorem unanswered (houses : x.Houses now r (⟨t, some limit⟩ :: others))
    (answer : r.await t limit now = (none, r')) : ∃ h,
    (x.step (.look h)).1 = .waiting ∧
      (x.step (.look h)).2.Houses now r' (⟨t, some limit⟩ :: others) := by
  have whole := houses
  obtain ⟨sound, _, rfl, rfl, held, _, _⟩ := houses
  obtain ⟨h, there⟩ := held ⟨t, some limit⟩ (List.mem_cons_self ..)
  have after : x.step (.look h) = (.waiting, x.withRegistry r') := by
    simp only [step, Hall.look, there, answer]
  refine ⟨h, congrArg Prod.fst after, ?_⟩
  exact whole.still (.look h) (by rw [after]; rfl) (by rw [after]; rfl) (by rw [after]; rfl)

theorem drop (houses : x.Houses now r (hold :: others)) : ∃ h, (x.step (.drop h)).1 = .none ∧
    (x.step (.drop h)).2.Houses now (r.release hold.ticket) others := by
  have whole := houses
  obtain ⟨sound, _, rfl, rfl, held, _, _⟩ := houses
  obtain ⟨h, there⟩ := held hold (List.mem_cons_self ..)
  have after : x.step (.drop h) =
      (.none, (x.withRegistry (x.registry.release hold.ticket)).withHold h none) := by
    simp only [step, Hall.drop, there]
  have good := step_sound sound (.drop h)
  refine ⟨h, congrArg Prod.fst after, ?_⟩
  rw [after] at good ⊢
  exact whole.without there good

end Houses

/-! ### Runs that tell the same endings -/

def Event.told? (e : Event) : Option (Ending × Nat) :=
  match e.answer with
  | .told ending => some (ending, e.before.now)
  | _ => none

theorem tells_of_told? (sound : x.Sound) {ops : List Op} {c : Event} (member : c ∈ x.events ops) {ending : Ending}
    (told : c.told? = some (ending, time)) : ∃ t, c.Tells t ending := by
  obtain ⟨past, op, rest, rfl, rfl⟩ := exists_of_mem_events member
  have change := step_change (after_sound sound past) op
  unfold Event.told? at told
  split at told
  · rename_i _ answer
    obtain ⟨same, _⟩ := Prod.mk.inj (Option.some.inj told)
    have answer : ((x.after past).step op).1 = .told ending := same ▸ answer
    rw [answer] at change
    generalize ((x.after past).step op).2 = y at change
    cases change with
    | nothing _ silent _ => exact absurd rfl (silent ending)
    | @finds h ticket limit _ r' held _ _ => exact ⟨ticket, answer, h, _, rfl, held, rfl⟩
    | @elapses h ticket limit r' held _ _ _ => exact ⟨ticket, answer, h, _, rfl, held, rfl⟩
  · cases told

theorem told?_of_silent {op : Op} (silent : ∀ ending, (x.step op).1 ≠ .told ending) : (x.event op).told? = none := by
  unfold Event.told? event
  dsimp only
  split
  · rename_i ending answer
    exact absurd answer (silent ending)
  · rfl

/-- Some run of a watch under a clock that is never late tells these endings, and comes to this registry, this
reaper and these callers. -/
def Plays (shards : Nat) (hash : String → UInt64) (told : List Ended) (now : Nat) (r : Registry)
    (reaper? : Option Reaper) (out : List Hold) : Prop :=
  ∃ acts, (Watch.start shards hash).Punctual acts ∧ ((Watch.start shards hash).after acts).hall.Houses now r out ∧
    ((Watch.start shards hash).after acts).reaper? = reaper? ∧
    ((start shards hash).events ((Watch.start shards hash).ops acts)).filterMap Event.told? =
      told.map fun e => (e.ending, e.at_)

namespace Plays

variable {shards : Nat} {hash : String → UInt64} {told : List Ended} {next? : Option Reaper}

theorem nothing (shards : Nat) (hash : String → UInt64) : Plays shards hash [] 0 (.create shards hash) none [] :=
  ⟨[], trivial, .start shards hash, rfl, rfl⟩

theorem act (plays : Plays shards hash told now r reaper? out) {new : List Ended}
    (performs : ∀ x : Watch, x.hall.Houses now r out → x.reaper? = reaper? → ∃ act,
      (∀ time, act = .op (.pass time) → x.MayPass time) ∧ (x.step act).hall.Houses time r' others ∧
        (x.step act).reaper? = next? ∧
        (x.hall.events (x.op? act).toList).filterMap Event.told? = new.map fun e => (e.ending, e.at_)) :
    Plays shards hash (told ++ new) time r' next? others := by
  obtain ⟨acts, punctual, houses, hired, tells⟩ := plays
  obtain ⟨act, allowed, after, then_, tell⟩ := performs _ houses hired
  have last : ((Watch.start shards hash).after acts).ops [act] =
      (((Watch.start shards hash).after acts).op? act).toList := List.append_nil _
  refine ⟨acts ++ [act], Watch.punctual_append.mpr ⟨punctual, allowed, trivial⟩, ?_, ?_, ?_⟩
  · rw [Watch.after_append]
    exact after
  · rw [Watch.after_append]
    exact then_
  · rw [Watch.ops_append, last, events_append, List.filterMap_append, List.map_append, tells, ← tell]
    congr 2
    rw [Watch.hall_after]
    rfl

/-- One more operation of the hall. -/
theorem op (plays : Plays shards hash told now r reaper? out) {new : List Ended}
    (performs : ∀ x, Houses x now r out → ∃ op, (∀ time, op ≠ .pass time) ∧ (x.step op).2.Houses now r' others ∧
      (x.event op).told?.toList = new.map fun e => (e.ending, e.at_)) :
    Plays shards hash (told ++ new) now r' reaper? others := by
  refine plays.act fun x houses hired => ?_
  obtain ⟨op, stays, after, tells⟩ := performs x.hall houses
  refine ⟨.op op, fun time passes => absurd (Watch.Act.op.inj passes) (stays time), after, hired, ?_⟩
  rw [← tells]
  show [x.hall.event op].filterMap Event.told? = _
  rw [List.filterMap_cons]
  cases (x.hall.event op).told? with
  | none => rfl
  | some tells => rfl

/-- One more operation that tells nobody anything. -/
theorem quiet (plays : Plays shards hash told now r reaper? out)
    (performs : ∀ x, Houses x now r out → ∃ op, (∀ time, op ≠ .pass time) ∧ (x.step op).2.Houses now r' others ∧
      ∀ ending, (x.step op).1 ≠ .told ending) : Plays shards hash told now r' reaper? others := by
  rw [← List.append_nil told]
  refine plays.op fun x houses => ?_
  obtain ⟨op, stays, after, silent⟩ := performs x houses
  refine ⟨op, stays, after, ?_⟩
  rw [told?_of_silent silent]
  rfl

theorem perm (plays : Plays shards hash told now r reaper? out) (same : out.Perm others) :
    Plays shards hash told now r reaper? others := by
  obtain ⟨acts, punctual, houses, hired, tells⟩ := plays
  exact ⟨acts, punctual, houses.perm same, hired, tells⟩

theorem apart (plays : Plays shards hash told now r reaper? out) : (out.map (·.ticket.serial)).Nodup := by
  obtain ⟨_, _, houses, _⟩ := plays
  exact houses.apart

/-- Time passes while nobody that waits has anything to find and the reaper has nothing to do. -/
theorem pass (plays : Plays shards hash told now r reaper? out) (time : Nat)
    (callers : ∀ hold ∈ out, ∀ limit, hold.until? = some limit →
      (r.await hold.ticket limit now).1 = none ∧ now + time ≤ limit)
    (reaper : ∀ s, reaper? = some s → now < s.next ∧ now + time ≤ s.next) :
    Plays shards hash told (now + time) r reaper? out := by
  rw [← List.append_nil told]
  refine plays.act fun x houses hired => ⟨.op (.pass time), ?_, ?_, hired, rfl⟩
  · intro _ same
    cases same
    have waits : ∀ h t limit, x.hall.holds h = some ⟨t, some limit⟩ →
        (r.await t limit now).1 = none ∧ now + time ≤ limit :=
      fun h t limit held => callers ⟨t, some limit⟩ (houses.waits h _ held nofun) limit rfl
    have reaps : ∀ s, x.reaper? = some s → now < s.next ∧ now + time ≤ s.next :=
      fun s some => reaper s (hired.symm.trans some)
    obtain rfl := houses.now
    obtain rfl := houses.registry
    exact ⟨⟨fun h t limit held => (waits h t limit held).1, fun s some => (reaps s some).1⟩,
      fun h t limit held => (waits h t limit held).2, fun s some => (reaps s some).2⟩
  · exact houses.still (.pass time) rfl (congrArg (· + time) houses.now) houses.registry

theorem sweep (plays : Plays shards hash told now r reaper? out) :
    Plays shards hash told now (r.sweep now).2 reaper? out := by
  refine plays.quiet fun x houses => ⟨.sweep, nofun, houses.still .sweep rfl houses.now ?_, nofun⟩
  rw [← houses.registry, ← houses.now]
  rfl

theorem resolve (plays : Plays shards hash told now r reaper? out) (id reply : String) :
    Plays shards hash told now (r.resolve now id reply).2 reaper? out := by
  refine plays.quiet fun x houses =>
    ⟨.resolve id reply, nofun, houses.still (.resolve id reply) rfl houses.now ?_, nofun⟩
  rw [← houses.registry, ← houses.now]
  rfl

theorem cancel (plays : Plays shards hash told now r reaper? out) (id : String) :
    Plays shards hash told now (r.cancel id).2 reaper? out := by
  refine plays.quiet fun x houses => ⟨.cancel id, nofun, houses.still (.cancel id) rfl houses.now ?_, nofun⟩
  rw [← houses.registry]
  rfl

theorem register (plays : Plays shards hash told now r reaper? out) {id : CallId} {deadline : Nat}
    (accepted : r.register now id deadline = (some t, r')) :
    Plays shards hash told now r' reaper? (⟨t, none⟩ :: out) := by
  refine plays.quiet fun x houses => ?_
  obtain ⟨answer, after⟩ := houses.register accepted
  refine ⟨.register ⟨id, r.nextSerial⟩ deadline, nofun, after, ?_⟩
  rw [answer]
  exact nofun

theorem duplicate (plays : Plays shards hash told now r reaper? out) {id : CallId} {deadline : Nat}
    (refused : r.register now id deadline = (none, r')) : Plays shards hash told now r' reaper? out := by
  refine plays.quiet fun x houses => ?_
  obtain ⟨answer, after⟩ := houses.duplicate refused
  refine ⟨.register ⟨id, r.nextSerial⟩ deadline, nofun, after, ?_⟩
  rw [answer]
  exact nofun

theorem wait (plays : Plays shards hash told now r reaper? (⟨t, none⟩ :: out)) (until? : Option Nat) :
    Plays shards hash told now r reaper? (⟨t, some (t.limit (until?.getD t.deadline))⟩ :: out) := by
  refine plays.quiet fun x houses => ?_
  obtain ⟨h, answer, after⟩ := houses.wait until?
  refine ⟨.wait h until?, nofun, after, ?_⟩
  rw [answer]
  exact nofun

theorem drop (plays : Plays shards hash told now r reaper? (hold :: out)) :
    Plays shards hash told now (r.release hold.ticket) reaper? out := by
  refine plays.quiet fun x houses => ?_
  obtain ⟨h, answer, after⟩ := houses.drop
  refine ⟨.drop h, nofun, after, ?_⟩
  rw [answer]
  exact nofun

/-! ### Reapers -/

theorem hire (plays : Plays shards hash told now r reaper? out) (interval : Nat) :
    Plays shards hash told now r (some ⟨interval, now⟩) out := by
  rw [← List.append_nil told]
  refine plays.act fun x houses _ => ⟨.hire interval, fun _ => nofun, houses, ?_, rfl⟩
  rw [← houses.now]
  rfl

theorem dismiss (plays : Plays shards hash told now r reaper? out) : Plays shards hash told now r none out := by
  rw [← List.append_nil told]
  exact plays.act fun x houses _ => ⟨.dismiss, fun _ => nofun, houses, rfl, rfl⟩

theorem reap {reaper : Reaper} (plays : Plays shards hash told now r (some reaper) out) (due : reaper.next ≤ now) :
    Plays shards hash told now (r.sweep now).2 (some { reaper with next := now + max 1 reaper.interval }) out := by
  rw [← List.append_nil told]
  refine plays.act fun x houses hired => ?_
  obtain rfl := houses.now
  obtain rfl := houses.registry
  have after : x.step .reap =
      ⟨(x.hall.step .sweep).2, some { reaper with next := x.hall.now + max 1 reaper.interval }⟩ := by
    show x.reap = _
    rw [Watch.reap_eq, hired]
    exact if_pos due
  have op : x.op? .reap = some .sweep := by
    rw [Watch.op?, hired]
    exact if_pos (decide_eq_true due)
  refine ⟨.reap, ?_, ?_, ?_, ?_⟩
  · intro time same
    cases same
  · rw [after]
    exact houses.still .sweep rfl rfl rfl
  · rw [after]
  · rw [op]
    rfl

end Plays

/-! ### Desks -/

def seat (w : Waiter) : Hold :=
  ⟨w.ticket, some w.until_⟩

def unseated (t : Ticket) : Hold :=
  ⟨t, none⟩

/-- A run that has told what has ended at a desk, beside what was told before, and comes to where the
desk stands, with some callers that hold their tickets and do not wait yet. -/
def Serves (shards : Nat) (hash : String → UInt64) (told : List Ended) (idle : List Ticket) (now : Nat) (d : Desk) :
    Prop :=
  Plays shards hash (told ++ d.ended) now d.registry d.reaper? (d.waiters.map seat ++ idle.map unseated)

variable {shards : Nat} {hash : String → UInt64} {told : List Ended} {idle kept : List Ticket} {waiters : List Waiter}
  {d : Desk}

/-- Tickets with which nobody waits may be forgotten. -/
theorem Plays.forget (plays : Plays shards hash told now r reaper? (waiters.map seat ++ idle.map unseated))
    (fewer : kept.Sublist idle) : Plays shards hash told now r reaper? (waiters.map seat ++ kept.map unseated) := by
  obtain ⟨acts, punctual, houses, hired, tells⟩ := plays
  refine ⟨acts, punctual, houses.sublist ((fewer.map unseated).append_left _) ?_, hired, tells⟩
  intro hold member waiting
  rcases List.mem_append.mp member with seated | left
  · exact List.mem_append_left _ seated
  · obtain ⟨t, _, rfl⟩ := List.mem_map.mp left
    exact absurd rfl waiting

theorem look_plays {w : Waiter} {rest : List Waiter}
    (plays : Plays shards hash (told ++ d.ended) now d.registry reaper? ((d.waiters ++ w :: rest).map seat ++ out)) :
    Plays shards hash (told ++ (d.look now w).ended) now (d.look now w).registry reaper?
      (((d.look now w).waiters ++ rest).map seat ++ out) := by
  have first : ((d.waiters ++ w :: rest).map seat ++ out).Perm (seat w :: ((d.waiters ++ rest).map seat ++ out)) :=
    (List.perm_middle.map seat).append_right out
  have plays := plays.perm first
  unfold Desk.look
  cases answer : d.registry.await w.ticket w.until_ now with
  | mk ending? r =>
    cases ending? with
    | some ending =>
      dsimp only
      rw [← List.append_assoc]
      refine plays.op fun x houses => ?_
      obtain ⟨h, tells, after⟩ := houses.told answer
      refine ⟨.look h, nofun, after, ?_⟩
      rw [Event.told?, event, tells, houses.now]
      rfl
    | none =>
      have waits :
          Plays shards hash (told ++ d.ended) now r reaper? (seat w :: ((d.waiters ++ rest).map seat ++ out)) := by
        refine plays.quiet fun x houses => ?_
        obtain ⟨h, tells, after⟩ := houses.unanswered answer
        refine ⟨.look h, nofun, after, ?_⟩
        rw [tells]
        exact nofun
      dsimp only
      rw [List.append_assoc, List.singleton_append]
      exact waits.perm first.symm

theorem foldl_look_serves (waiters : List Waiter)
    (plays : Plays shards hash (told ++ d.ended) now d.registry d.reaper?
      ((d.waiters ++ waiters).map seat ++ idle.map unseated)) :
    Serves shards hash told idle now (waiters.foldl (Desk.look now) d) := by
  induction waiters generalizing d with
  | nil =>
    rw [List.append_nil] at plays
    exact plays
  | cons w rest ih =>
    refine ih ?_
    rw [Desk.look_reaper]
    exact look_plays plays

namespace Serves

theorem settle (serves : Serves shards hash told idle now d) : Serves shards hash told idle now (d.settle now) :=
  foldl_look_serves d.waiters serves

theorem reap (serves : Serves shards hash told idle now d) : Serves shards hash told idle now (d.reap now) := by
  unfold Desk.reap
  split
  · rename_i reaper hired
    split
    · rename_i due
      rw [Serves, hired] at serves
      exact serves.reap due
    · exact serves
  · exact serves

theorem wake (serves : Serves shards hash told idle now d) : Serves shards hash told idle now (d.wake now) :=
  serves.reap.settle

/-- Time goes on at a desk that rests, up to its next timer. -/
theorem later (serves : Serves shards hash told idle now d) (rests : d.Rests now) (early : now ≤ time)
    (within : ∀ t, d.nextWake = some t → time ≤ t) : Serves shards hash told idle time d := by
  have timer : ∀ {u}, u ∈ d.timers → time ≤ u := by
    intro u member
    obtain ⟨t, found, least⟩ := Clock.exists_earliest_le member
    exact Nat.le_trans (within t found) least
  have passed := Plays.pass serves (time - now) ?_ ?_
  · rw [Nat.add_sub_of_le early] at passed
    exact passed
  · intro hold member limit waits
    rcases List.mem_append.mp member with seated | left
    · obtain ⟨w, inside, rfl⟩ := List.mem_map.mp seated
      obtain rfl := Option.some.inj waits
      obtain ⟨absent, ahead⟩ := rests.waits w inside
      rw [Nat.add_sub_of_le early]
      exact ⟨congrArg Prod.fst (Registry.await_early absent ahead),
        timer (Desk.mem_timers.mpr (Or.inl ⟨w, inside, rfl⟩))⟩
    · obtain ⟨t, _, rfl⟩ := List.mem_map.mp left
      cases waits
  · intro s hired
    rw [Nat.add_sub_of_le early]
    exact ⟨rests.sweeps s hired, timer (Desk.mem_timers.mpr (Or.inr ⟨s, hired, rfl⟩))⟩

/-- Time goes on to a limit, and everything that happens by itself on the way happens. -/
theorem pass (serves : Serves shards hash told idle now d) (rests : d.Rests now) {limit : Nat} (early : now ≤ limit) :
    Serves shards hash told idle limit (Clock.pass Desk.nextWake Desk.wake limit now d) := by
  refine (Clock.pass_keeps (fun now d => Serves shards hash told idle now d ∧ d.Rests now) ?_ ?_ ?_ ⟨serves, rests⟩
    early).1
  · intro now d t here found
    exact here.2.lt_nextWake found
  · rintro now d t ⟨serves, rests⟩ found
    have there := serves.later rests (Nat.le_of_lt (rests.lt_nextWake found)) fun u same =>
      Nat.le_of_eq (Option.some.inj (found.symm.trans same))
    exact ⟨there.wake, Desk.rests_wake d t⟩
  · rintro now d time ⟨serves, rests⟩ later idle
    exact ⟨serves.later rests later fun t found => Nat.le_of_lt (idle t found), rests.later idle⟩

end Serves

end Hall

/-! ### Sessions -/

/-- One of the items that are found stands for all of them, and those that are not found are others. -/
theorem exists_perm_of_find? {α : Type} {p : α → Bool} {xs : List α} {a : α} (found : xs.find? p = some a) :
    ∃ others, xs.Perm (a :: others) ∧ (xs.filter fun x => !p x).Sublist others := by
  obtain ⟨before, after, rfl⟩ := List.append_of_mem (List.mem_of_find?_eq_some found)
  refine ⟨before ++ after, List.perm_middle, ?_⟩
  have left : (!p a) = false := by
    rw [List.find?_some found]
    rfl
  rw [List.filter_append, List.filter_cons, left]
  exact (List.filter_sublist).append (List.filter_sublist)

namespace RegistrySession

open Hall

variable {shards : Nat} {hash : String → UInt64} {told : List Ended} {extra : List Ticket} {s : RegistrySession}

def idle (s : RegistrySession) : List Ticket :=
  s.tickets.entries.map Prod.snd

/-- A run of a watch that has told what was collected in a session, and what is to be collected, and
comes to where the session stands. -/
def Shows (shards : Nat) (hash : String → UInt64) (told : List Ended) (extra : List Ticket) (s : RegistrySession) :
    Prop :=
  Serves shards hash told (extra ++ s.idle) s.now s.desk

namespace Shows

theorem take (shows : Shows shards hash told extra s) {name : String} {t : Ticket}
    (found : s.tickets.get? name = some t) :
    ∃ others, Plays shards hash (told ++ s.desk.ended) s.now s.desk.registry s.desk.reaper?
        (unseated t :: (s.desk.waiters.map seat ++ (extra ++ others).map unseated)) ∧
      (RegistrySession.idle { s with tickets := s.tickets.erase name }).Sublist others := by
  obtain ⟨⟨_, _⟩, first, rfl⟩ := Option.map_eq_some_iff.mp found
  obtain ⟨others, same, rest⟩ := exists_perm_of_find? first
  refine ⟨others.map Prod.snd, Plays.perm shows ?_, rest.map Prod.snd⟩
  have tickets := ((same.map Prod.snd).append_left extra).trans List.perm_middle
  exact ((tickets.map unseated).append_left _).trans List.perm_middle

theorem drop (shows : Shows shards hash told extra s) (name : String) : Shows shards hash told extra (s.drop name) := by
  unfold RegistrySession.drop
  split
  · rename_i t found
    obtain ⟨others, plays, rest⟩ := shows.take found
    exact plays.drop.forget (rest.append_left extra)
  · exact shows

theorem register (shows : Shows shards hash told [] s) (id : String) (limit : Limit) (name : String) :
    Shows shards hash told [] (s.register id limit name).2 := by
  unfold RegistrySession.register
  split
  · exact shows
  · rename_i id _
    split
    · rename_i r refused
      exact Plays.duplicate shows refused
    · rename_i t r accepted
      have entered : Shows shards hash told [t] (s.withRegistry r) :=
        (Plays.register shows accepted).perm List.perm_middle.symm
      have replaced := entered.drop name
      generalize (s.withRegistry r).drop name = s' at replaced
      exact Plays.forget replaced ((List.filter_sublist.map _).cons_cons _)

theorem wait (shows : Shows shards hash told [] s) {name : String} {t : Ticket} (until? : Option Nat)
    (found : s.tickets.get? name = some t) (callers : Table Nat) :
    Shows shards hash told [] { s with
      desk := s.desk.enter name t (until?.getD t.deadline)
      tickets := s.tickets.erase name
      callers } := by
  obtain ⟨others, plays, rest⟩ := shows.take found
  have entered := (plays.wait until?).perm List.perm_middle.symm
  refine Plays.forget ?_ rest
  rw [Desk.enter, List.map_append, List.append_assoc]
  exact entered

theorem abandon (shows : Shows shards hash told [] s) {serial : Nat} {desk : Desk}
    (gone : s.desk.abandon? serial = some desk) (callers : Table Nat) :
    Shows shards hash told [] { s with desk, callers } := by
  unfold Desk.abandon? at gone
  split at gone
  · rename_i w found
    obtain rfl := Option.some.inj gone
    obtain ⟨others, same, _⟩ := exists_perm_of_find? found
    have first := Plays.perm shows ((same.map seat).append_right _)
    have chosen : w.ticket.serial = serial := by simpa using List.find?_some found
    -- No two callers have one serial, so those that stay are all the others.
    have apart : ∀ v ∈ others, v.ticket.serial ≠ serial := by
      intro v member equal
      refine (List.nodup_cons.mp first.apart).1 ?_
      have seated : seat v ∈ others.map seat ++ ([] ++ s.idle).map unseated :=
        List.mem_append_left _ (List.mem_map_of_mem member)
      exact List.mem_map.mpr ⟨seat v, seated, equal.trans chosen.symm⟩
    have rest : (s.desk.waiters.filter (·.ticket.serial != serial)).Perm others := by
      have kept := same.filter (·.ticket.serial != serial)
      rw [List.filter_cons_of_neg (by simp [chosen])] at kept
      rwa [List.filter_eq_self.mpr fun v member => bne_iff_ne.mpr (apart v member)] at kept
    exact first.drop.perm ((rest.symm.map seat).append_right _)
  · cases gone

theorem perform (shows : Shows shards hash told [] s) (rests : s.desk.Rests s.now) (step : Step) :
    Shows shards hash told [] (s.perform step).2 := by
  cases step with
  | register id limit name => exact shows.register id limit name
  | wait name until? =>
    unfold RegistrySession.perform
    dsimp only
    split
    · exact shows
    · rename_i t found
      exact shows.wait until? found _
  | abort name =>
    unfold RegistrySession.perform
    dsimp only
    split
    · exact shows
    · split
      · rename_i desk gone
        exact shows.abandon gone _
      · exact shows
  | drop name => exact shows.drop name
  | resolve id reply => exact Plays.resolve shows id reply
  | cancel id => exact Plays.cancel shows id
  | contains id => exact shows
  | evict => exact Plays.sweep shows
  | sleep time => exact Serves.pass shows rests (Nat.le_add_right s.now time)
  | reaper interval => exact Plays.hire shows interval
  | stopReaper => exact Plays.dismiss shows

theorem step (shows : Shows shards hash told [] s) (rests : s.desk.Rests s.now) (step : Step) :
    Shows shards hash (told ++ (s.step step).2.1) [] (s.step step).2.2 := by
  have woken := Serves.wake (shows.perform rests step)
  unfold Shows Serves at woken ⊢
  rw [← List.append_nil (told ++ _)] at woken
  exact woken

end Shows

/-- What a session has come to, with the waits that have ended in it, oldest first. -/
inductive Reached (shards : Nat) (hash : String → UInt64) : List Ended → RegistrySession → Prop where
  | start : Reached shards hash [] (.start shards hash)
  | step {before : List Ended} {s : RegistrySession} (reached : Reached shards hash before s) (next : Step) :
      Reached shards hash (before ++ (s.step next).2.1) (s.step next).2.2

theorem step_rests (s : RegistrySession) (next : Step) : (s.step next).2.2.desk.Rests (s.step next).2.2.now := by
  have rests := Desk.rests_wake (s.perform next).2.desk (s.perform next).2.now
  exact ⟨rests.waits, rests.sweeps⟩

theorem reached_shows (reached : Reached shards hash told s) :
    Shows shards hash told [] s ∧ s.desk.ended = [] ∧ s.desk.Rests s.now := by
  induction reached with
  | start => exact ⟨.nothing shards hash, rfl, nofun, nofun⟩
  | step reached next ih => exact ⟨ih.1.step ih.2.2 next, rfl, step_rests _ next⟩

/-- A session is a run of a watch under a clock that is never late: it comes to the same registry and the same
reaper at the same time, with nothing left to do, and the waits that end in it are those whose callers are told
so, in order. Each ends as the registration did that it waited for. -/
theorem reached_run (reached : Reached shards hash told s) : ∃ acts,
    (Watch.start shards hash).Punctual acts ∧ ((Watch.start shards hash).after acts).Settled ∧
      ((Watch.start shards hash).after acts).hall.registry = s.desk.registry ∧
      ((Watch.start shards hash).after acts).hall.now = s.now ∧
      ((Watch.start shards hash).after acts).reaper? = s.desk.reaper? ∧
      ((Hall.start shards hash).events ((Watch.start shards hash).ops acts)).filterMap Event.told? =
        told.map (fun e => (e.ending, e.at_)) ∧
      ∀ e ∈ told, ∃ t, ∃ c ∈ (Hall.start shards hash).events ((Watch.start shards hash).ops acts),
        c.Ends t ∧ (c.Brings t e.ending ∨ c.Tells t e.ending ∧ e.ending = .timedOut) := by
  obtain ⟨⟨acts, punctual, houses, hired, tells⟩, none, rests⟩ := reached_shows reached
  rw [none, List.append_nil] at tells
  refine ⟨acts, punctual, ⟨?_, ?_⟩, houses.registry, houses.now, hired, tells, ?_⟩
  · intro h t limit held
    rcases List.mem_append.mp (houses.waits h _ held nofun) with seated | left
    · obtain ⟨w, inside, same⟩ := List.mem_map.mp seated
      cases same
      obtain ⟨absent, early⟩ := rests.waits w inside
      rw [houses.registry, houses.now, Registry.await_early absent early]
    · obtain ⟨_, _, same⟩ := List.mem_map.mp left
      cases same
  · intro r some
    rw [houses.now]
    exact rests.sweeps r (hired.symm.trans some)
  · intro e member
    have found : (e.ending, e.at_) ∈ ((Hall.start shards hash).events
        ((Watch.start shards hash).ops acts)).filterMap Event.told? := by
      rw [tells]
      exact List.mem_map_of_mem member
    obtain ⟨c, here, told⟩ := List.mem_filterMap.mp found
    obtain ⟨t, tells⟩ := tells_of_told? (start_sound shards hash) here told
    obtain ⟨_, d, there, ends, brings | ⟨rfl, late⟩⟩ := tells_cause here tells
    · exact ⟨t, d, there, ends, Or.inl brings⟩
    · exact ⟨t, d, there, ends, Or.inr ⟨tells, late⟩⟩

/-- While a reaper is there, no call stays in a session for an interval beyond its deadline, or beyond its
registration if that came later. -/
theorem lt_of_reaper (reached : Reached shards hash told s) {r : Reaper} (hired : s.desk.reaper? = some r)
    (positive : 0 < r.interval) {e : String × PendingCall} (pending : e ∈ s.desk.registry.entries) :
    s.now < max e.2.deadline e.2.created + r.interval := by
  obtain ⟨acts, punctual, settled, registry, now, reaper, _⟩ := reached_run reached
  rw [← registry] at pending
  rw [← now]
  exact Watch.lt_of_settled punctual settled (reaper.trans hired) positive pending

end RegistrySession

end SoapRelay
