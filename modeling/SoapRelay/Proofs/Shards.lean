import SoapRelay.Proofs.Clock
import SoapRelay.Proofs.Counters
import SoapRelay.Registry.Session

/-!
# Shards cannot be told apart

Two registries that hold the same calls in different shards answer alike and go on holding the same
calls. Whoever uses a registry therefore sees nothing of how its entries are spread.
-/

namespace SoapRelay

namespace Registry

variable {r q r' q' : Registry}

/-- The same calls and endings, in whatever shards and order. -/
structure Same (r q : Registry) : Prop where
  left : r.Valid
  right : q.Valid
  entries : r.entries.Perm q.entries
  endings : r.endings.Perm q.endings
  nextSerial : r.nextSerial = q.nextSerial
  stats : r.stats = q.stats

theorem create_same (shards others : Nat) (hash other : String → UInt64) :
    (create shards hash).Same (create others other) := by
  refine ⟨create_valid shards hash, create_valid others other, ?_, .refl _, rfl, rfl⟩
  rw [entries_create, entries_create]

theorem nextSerial_register (r : Registry) (now : Nat) (id : CallId) (deadline : Nat) :
    (r.register now id deadline).2.nextSerial = r.nextSerial + 1 := by
  unfold register
  dsimp only
  split
  · rfl
  · rfl

theorem remove_sheds (shaped : r.Shaped) (id : String) : r.Sheds (r.remove id) (·.1 != id) [] every := by
  refine ⟨rfl, ?_, Nat.le_refl _, ?_, nofun, List.nodup_nil⟩
  · rw [remove_eq_retain shaped]
  · exact (filter_every r.endings).symm

/-! ### Registries with the same calls answer alike -/

namespace Same

theorem mem_entries (same : r.Same q) {e : String × PendingCall} : e ∈ r.entries ↔ e ∈ q.entries :=
  same.entries.mem_iff

theorem find?_eq (same : r.Same q) (id : String) : r.find? id = q.find? id := by
  ext p
  rw [find?_eq_some_iff same.left.toShaped, find?_eq_some_iff same.right.toShaped, same.mem_entries]

theorem contains_eq (same : r.Same q) (id : String) : r.contains id = q.contains id := by
  rw [contains, contains, same.find?_eq]

theorem pending_eq (same : r.Same q) : r.pending = q.pending := by
  rw [pending_eq_length, pending_eq_length, same.entries.length_eq]

theorem owns_eq (same : r.Same q) (t : Ticket) : r.owns t = q.owns t := by
  rw [owns, owns, same.find?_eq]

theorem endingOf?_eq (same : r.Same q) (t : Ticket) : r.endingOf? t = q.endingOf? t := by
  ext ending
  rw [endingOf?_eq_some_iff same.left, endingOf?_eq_some_iff same.right, same.endings.mem_iff]

theorem expired_perm (same : r.Same q) (now : Nat) : (r.expired now).Perm (q.expired now) := by
  rw [expired_eq, expired_eq]
  exact (same.entries.map _).filter _

theorem sheds {stays : String × PendingCall → Bool} {new new' : List (Nat × Ending)} {kept : Nat × Ending → Bool}
    (same : r.Same q) (first : r.Sheds r' stays new kept) (second : q.Sheds q' stays new' kept)
    (sent : new.Perm new') (nextSerial : r'.nextSerial = q'.nextSerial) (stats : r'.stats = q'.stats) :
    r'.Same q' := by
  refine ⟨first.valid same.left, second.valid same.right, ?_, ?_, nextSerial, stats⟩
  · rw [first.entries_eq, second.entries_eq]
    exact same.entries.filter stays
  · rw [first.endings, second.endings]
    exact sent.append (same.endings.filter kept)

theorem enters {e : String × PendingCall} (same : r.Same q) (first : r.Enters r' e) (second : q.Enters q' e)
    (stats : r'.stats = q'.stats) : r'.Same q' := by
  refine ⟨first.valid same.left, second.valid same.right, ?_, ?_, ?_, stats⟩
  · exact first.entries.trans ((same.entries.cons e).trans second.entries.symm)
  · rw [first.endings, second.endings]
    exact same.endings
  · rw [first.serial, second.serial, same.nextSerial]

theorem register (same : r.Same q) (now : Nat) (id : CallId) (deadline : Nat) :
    (r.register now id deadline).1 = (q.register now id deadline).1 ∧
      (r.register now id deadline).2.Same (q.register now id deadline).2 := by
  have stats : (r.register now id deadline).2.stats = (q.register now id deadline).2.stats := by
    rw [stats_register, stats_register, same.contains_eq, same.stats]
  have serials : (r.register now id deadline).2.nextSerial = (q.register now id deadline).2.nextSerial := by
    rw [nextSerial_register, nextSerial_register, same.nextSerial]
  refine ⟨by rw [register_fst, register_fst, same.contains_eq, same.nextSerial], ?_⟩
  rcases register_cases same.left.toShaped now id deadline with ⟨p, pending, _, first⟩ | ⟨absent, _, first⟩
  · rcases register_cases same.right.toShaped now id deadline with ⟨_, _, _, second⟩ | ⟨absent, _⟩
    · exact same.sheds first second (.refl _) serials stats
    · exact absurd (same.mem_entries.mp pending) (absent p)
  · rcases register_cases same.right.toShaped now id deadline with ⟨p, pending, _⟩ | ⟨_, _, second⟩
    · exact absurd (same.mem_entries.mpr pending) (absent p)
    · rw [← same.nextSerial] at second
      exact same.enters first second stats

theorem remove (same : r.Same q) (id : String) : (r.remove id).Same (q.remove id) :=
  same.sheds (remove_sheds same.left.toShaped id) (remove_sheds same.right.toShaped id) (.refl _) same.nextSerial
    same.stats

theorem counted (same : r.Same q) (stats : RegistryStats) : ({ r with stats } : Registry).Same { q with stats } :=
  same.sheds (.nothing rfl rfl (Nat.le_refl _) rfl) (.nothing rfl rfl (Nat.le_refl _) rfl) (.refl _) same.nextSerial rfl

theorem ends (same : r.Same q) {id : String} {p : PendingCall} (found : q.find? id = some p) (stats : RegistryStats)
    (ending : Ending) :
    ((({ r with stats } : Registry).remove id).deliver p.serial ending).Same
      ((({ q with stats } : Registry).remove id).deliver p.serial ending) := by
  have pending := (find?_eq_some_iff same.right.toShaped).mp found
  exact same.sheds
    (.one [ending] same.left.toShaped (same.mem_entries.mpr pending) (Nat.le_refl 1) rfl rfl rfl rfl)
    (.one [ending] same.right.toShaped pending (Nat.le_refl 1) rfl rfl rfl rfl) (.refl _) same.nextSerial rfl

theorem resolve (same : r.Same q) (now : Nat) (id reply : String) :
    (r.resolve now id reply).1 = (q.resolve now id reply).1 ∧
      (r.resolve now id reply).2.Same (q.resolve now id reply).2 := by
  unfold Registry.resolve
  rw [same.find?_eq, same.stats]
  cases found : q.find? id with
  | none => exact ⟨rfl, same.counted _⟩
  | some p => exact ⟨rfl, same.ends found _ _⟩

theorem cancel (same : r.Same q) (id : String) :
    (r.cancel id).1 = (q.cancel id).1 ∧ (r.cancel id).2.Same (q.cancel id).2 := by
  unfold Registry.cancel
  rw [same.find?_eq, same.stats]
  cases found : q.find? id with
  | none => exact ⟨rfl, same⟩
  | some p => exact ⟨rfl, same.ends found _ _⟩

/-- The shards are swept one after the other, so the endings come in different orders. -/
theorem sweep (same : r.Same q) (now : Nat) :
    (r.sweep now).1 = (q.sweep now).1 ∧ (r.sweep now).2.Same (q.sweep now).2 := by
  have perm := same.expired_perm now
  refine ⟨perm.length_eq, ?_⟩
  refine same.sheds (sweep_sheds same.left now) (sweep_sheds same.right now) (perm.map _) same.nextSerial ?_
  rw [stats_sweep, stats_sweep, same.stats, perm.length_eq]

theorem clearEnding (same : r.Same q) (t : Ticket) : (r.clearEnding t).Same (q.clearEnding t) :=
  same.sheds (clearEnding_sheds r t) (clearEnding_sheds q t) (.refl _) same.nextSerial same.stats

theorem await (same : r.Same q) (t : Ticket) (until_ now : Nat) :
    (r.await t until_ now).1 = (q.await t until_ now).1 ∧
      (r.await t until_ now).2.Same (q.await t until_ now).2 := by
  unfold Registry.await
  rw [same.endingOf?_eq, same.owns_eq, same.stats]
  split
  · exact ⟨rfl, same.clearEnding t⟩
  · split
    · split
      · exact ⟨rfl, (same.counted _).remove t.id⟩
      · exact ⟨rfl, same⟩
    · exact ⟨rfl, same⟩

theorem release (same : r.Same q) (t : Ticket) : (r.release t).Same (q.release t) := by
  unfold Registry.release
  rw [same.owns_eq, same.stats]
  split
  · exact (same.counted _).remove t.id
  · exact same.clearEnding t

end Same

/-! ### Where an entry stands -/

/-- The hash chooses the shard of an id, and an entry stands in the shard of its id and no other. -/
structure Spread (r : Registry) (shards : Nat) (hash : String → UInt64) : Prop where
  count : r.shards.length = max 1 shards
  index : ∀ id, r.shardIndex id = (hash id).toNat % max 1 shards
  within : ∀ id, r.shardIndex id < r.shards.length
  placed : ∀ i t, r.shards[i]? = some t → ∀ e ∈ t.entries, i = r.shardIndex e.1

/-- The hash and the number of shards. -/
def Shape (shards : Nat) (hash : String → UInt64) (r : Registry) : Prop :=
  r.hash = hash ∧ r.shards.length = max 1 shards

variable {shards : Nat} {hash : String → UInt64}

theorem create_shape (shards : Nat) (hash : String → UInt64) : Shape shards hash (create shards hash) :=
  ⟨rfl, List.length_replicate⟩

theorem Shape.spread (shape : Shape shards hash r) (shaped : r.Shaped) : r.Spread shards hash := by
  refine ⟨shape.2, ?_, shaped.index_lt, fun i t at_ e member => (shaped.placed i t at_ e member).symm⟩
  intro id
  rw [shardIndex, shape.1, shape.2]

theorem Sheds.shape {stays : String × PendingCall → Bool} {new : List (Nat × Ending)} {kept : Nat × Ending → Bool}
    (sheds : r.Sheds r' stays new kept) (shape : Shape shards hash r) : Shape shards hash r' := by
  refine ⟨sheds.hash.trans shape.1, ?_⟩
  rw [sheds.shards, retain, List.length_map]
  exact shape.2

theorem register_shape (shape : Shape shards hash r) (now : Nat) (id : CallId) (deadline : Nat) :
    Shape shards hash (r.register now id deadline).2 := by
  unfold register
  dsimp only
  split
  · exact shape
  · exact ⟨shape.1, List.length_set.trans shape.2⟩

end Registry

/-! ### Runs of a hall -/

namespace Hall

variable {x y : Hall} {shards : Nat} {hash : String → UInt64}

theorem step_shape (sound : x.Sound) (shape : Registry.Shape shards hash x.registry) (op : Op) :
    Registry.Shape shards hash (x.step op).2.registry := by
  have shaped := sound.valid.toShaped
  refine step_keeps shape ?_ ?_ ?_ ?_ ?_ ?_ op
  · exact fun id deadline => Registry.register_shape shape x.now id deadline
  · intro id reply
    rcases Registry.resolve_cases shaped x.now id reply with ⟨_, _, _, sheds⟩ | ⟨_, _, sheds⟩
    · exact sheds.shape shape
    · exact sheds.shape shape
  · intro id
    rcases Registry.cancel_cases shaped id with ⟨_, _, _, sheds⟩ | ⟨_, _, same⟩
    · exact sheds.shape shape
    · rw [same]
      exact shape
  · exact (Registry.sweep_sheds sound.valid x.now).shape shape
  · intro t until_
    rcases Registry.await_cases sound.valid t until_ x.now with
      ⟨_, _, _, sheds⟩ | ⟨_, ⟨_, _, _, sheds⟩ | ⟨_, told, _⟩ | ⟨_, waits⟩⟩
    · exact sheds.shape shape
    · exact sheds.shape shape
    · rw [told]
      exact shape
    · rw [waits]
      exact shape
  · intro t
    rcases Registry.release_cases sound.valid t with ⟨_, _, _, sheds⟩ | ⟨_, sheds⟩
    · exact sheds.shape shape
    · exact sheds.shape shape

theorem after_spread (shards : Nat) (hash : String → UInt64) (ops : List Op) :
    ((start shards hash).after ops).registry.Spread shards hash := by
  have shape : ∀ x : Hall, x.Sound → Registry.Shape shards hash x.registry →
      Registry.Shape shards hash (x.after ops).registry := by
    induction ops with
    | nil => exact fun _ _ shape => shape
    | cons op ops ih => exact fun x sound shape => ih (x.step op).2 (step_sound sound op) (step_shape sound shape op)
  have sound := start_sound shards hash
  exact (shape _ sound (Registry.create_shape shards hash)).spread (after_sound sound ops).valid.toShaped

/-- Two halls with the same callers, at registries with the same calls. -/
structure Same (x y : Hall) : Prop where
  now : x.now = y.now
  registry : x.registry.Same y.registry
  holds : x.holds = y.holds

theorem start_same (shards others : Nat) (hash other : String → UInt64) :
    (start shards hash).Same (start others other) :=
  ⟨rfl, Registry.create_same shards others hash other, rfl⟩

theorem Same.register (same : x.Same y) (h : Handle) (deadline : Nat) :
    (x.register h deadline).1 = (y.register h deadline).1 ∧
      (x.register h deadline).2.Same (y.register h deadline).2 := by
  unfold Hall.register
  rw [same.holds, same.now]
  obtain ⟨answer, after⟩ := same.registry.register y.now h.id deadline
  cases y.holds h with
  | some hold => exact ⟨rfl, same⟩
  | none =>
    cases first : x.registry.register y.now h.id deadline with
    | mk ticket? r =>
      cases second : y.registry.register y.now h.id deadline with
      | mk other? q =>
        rw [first, second] at answer after
        obtain rfl : ticket? = other? := answer
        cases ticket? with
        | none => exact ⟨rfl, same.now, after, same.holds⟩
        | some ticket =>
          refine ⟨rfl, same.now, after, ?_⟩
          show Function.update x.holds h _ = Function.update y.holds h _
          rw [same.holds]

theorem Same.look (same : x.Same y) (h : Handle) :
    (x.look h).1 = (y.look h).1 ∧ (x.look h).2.Same (y.look h).2 := by
  unfold Hall.look
  rw [same.holds, same.now]
  split
  · rename_i ticket limit _
    obtain ⟨answer, after⟩ := same.registry.await ticket limit y.now
    cases first : x.registry.await ticket limit y.now with
    | mk ending? r =>
      cases second : y.registry.await ticket limit y.now with
      | mk other? q =>
        rw [first, second] at answer after
        obtain rfl : ending? = other? := answer
        cases ending? with
        | none => exact ⟨rfl, same.now, after, same.holds⟩
        | some ending =>
          refine ⟨rfl, same.now, after, ?_⟩
          show Function.update x.holds h none = Function.update y.holds h none
          rw [same.holds]
  · exact ⟨rfl, same⟩

theorem Same.step (same : x.Same y) (op : Op) : (x.step op).1 = (y.step op).1 ∧ (x.step op).2.Same (y.step op).2 := by
  cases op with
  | register h deadline => exact same.register h deadline
  | look h => exact same.look h
  | wait h until? =>
    unfold Hall.step Hall.wait
    dsimp only
    rw [same.holds]
    split
    · refine ⟨rfl, same.now, same.registry, ?_⟩
      show Function.update x.holds h _ = Function.update y.holds h _
      rw [same.holds]
    · exact ⟨rfl, same⟩
  | drop h =>
    unfold Hall.step Hall.drop
    dsimp only
    rw [same.holds]
    split
    · refine ⟨rfl, same.now, same.registry.release _, ?_⟩
      show Function.update x.holds h none = Function.update y.holds h none
      rw [same.holds]
    · exact ⟨rfl, same⟩
  | resolve id reply =>
    obtain ⟨answer, after⟩ := same.registry.resolve x.now id reply
    have now := same.now
    refine ⟨?_, same.now, ?_, same.holds⟩
    · show Answer.flag (x.registry.resolve x.now id reply).1 = Answer.flag (y.registry.resolve y.now id reply).1
      rw [answer, now]
    · show (x.registry.resolve x.now id reply).2.Same (y.registry.resolve y.now id reply).2
      rw [now] at after ⊢
      exact after
  | cancel id =>
    obtain ⟨answer, after⟩ := same.registry.cancel id
    exact ⟨congrArg Answer.flag answer, same.now, after, same.holds⟩
  | sweep =>
    obtain ⟨answer, after⟩ := same.registry.sweep x.now
    have now := same.now
    refine ⟨?_, same.now, ?_, same.holds⟩
    · show Answer.count (x.registry.sweep x.now).1 = Answer.count (y.registry.sweep y.now).1
      rw [answer, now]
    · show (x.registry.sweep x.now).2.Same (y.registry.sweep y.now).2
      rw [now] at after ⊢
      exact after
  | pass time => exact ⟨rfl, congrArg (· + time) same.now, same.registry, same.holds⟩

/-- What is seen of an event from outside. -/
def Event.seen (e : Event) : Op × Answer × Nat × RegistryStats × Nat :=
  (e.op, e.answer, e.after.now, e.after.registry.stats, e.after.registry.pending)

theorem Same.run (same : x.Same y) (ops : List Op) :
    (x.events ops).map Event.seen = (y.events ops).map Event.seen ∧ (x.after ops).Same (y.after ops) := by
  induction ops generalizing x y with
  | nil => exact ⟨rfl, same⟩
  | cons op ops ih =>
    obtain ⟨answer, after⟩ := same.step op
    obtain ⟨rest, final⟩ := ih after
    refine ⟨?_, final⟩
    have seen : (x.event op).seen = (y.event op).seen := by
      show (op, (x.step op).1, (x.step op).2.now, (x.step op).2.registry.stats, (x.step op).2.registry.pending) = _
      rw [answer, after.now, after.registry.stats, after.registry.pending_eq]
      rfl
    rw [events, events, List.map_cons, List.map_cons, seen, rest]

end Hall

/-! ### Sessions, with callers that are served in turn and a reaper -/

namespace Desk

variable {d e : Desk}

/-- Two desks with the same callers and the same reaper, at registries with the same calls. -/
structure Same (d e : Desk) : Prop where
  registry : d.registry.Same e.registry
  waiters : d.waiters = e.waiters
  ended : d.ended = e.ended
  reaper : d.reaper? = e.reaper?

namespace Same

theorem look (same : d.Same e) (now : Nat) (w : Waiter) : (d.look now w).Same (e.look now w) := by
  obtain ⟨answer, after⟩ := same.registry.await w.ticket w.until_ now
  unfold Desk.look
  cases first : d.registry.await w.ticket w.until_ now with
  | mk ending? r =>
    cases second : e.registry.await w.ticket w.until_ now with
    | mk other? q =>
      rw [first, second] at answer after
      obtain rfl : ending? = other? := answer
      cases ending? with
      | some ending => exact ⟨after, same.waiters, congrArg (· ++ [⟨w.name, ending, now⟩]) same.ended, same.reaper⟩
      | none => exact ⟨after, congrArg (· ++ [w]) same.waiters, same.ended, same.reaper⟩

theorem foldl_look (same : d.Same e) (now : Nat) (waiters : List Waiter) :
    (waiters.foldl (Desk.look now) d).Same (waiters.foldl (Desk.look now) e) := by
  induction waiters generalizing d e with
  | nil => exact same
  | cons w rest ih => exact ih (same.look now w)

theorem settle (same : d.Same e) (now : Nat) : (d.settle now).Same (e.settle now) := by
  unfold Desk.settle
  rw [same.waiters]
  have seated : ({ d with waiters := [] } : Desk).Same { e with waiters := [] } :=
    ⟨same.registry, rfl, same.ended, same.reaper⟩
  exact seated.foldl_look now e.waiters

theorem reap (same : d.Same e) (now : Nat) : (d.reap now).Same (e.reap now) := by
  unfold Desk.reap
  rw [same.reaper]
  split
  · split
    · exact ⟨(same.registry.sweep now).2, same.waiters, same.ended, rfl⟩
    · exact same
  · exact same

theorem wake (same : d.Same e) (now : Nat) : (d.wake now).Same (e.wake now) :=
  (same.reap now).settle now

theorem nextWake_eq (same : d.Same e) : d.nextWake = e.nextWake := by
  rw [nextWake, nextWake, same.waiters, same.reaper]

theorem pass (same : d.Same e) (limit now : Nat) :
    (Clock.pass nextWake Desk.wake limit now d).Same (Clock.pass nextWake Desk.wake limit now e) := by
  fun_induction Clock.pass nextWake Desk.wake limit now d generalizing e with
  | case1 now d nothing =>
    rw [Clock.pass_idle]
    · exact same
    · intro t found
      cases nothing.symm.trans (same.nextWake_eq.trans found)
  | case2 now d t found within ih =>
    rw [Clock.pass_next (same.nextWake_eq.symm.trans found) within]
    exact ih (same.wake t)
  | case3 now d t found beyond =>
    rw [Clock.pass_idle]
    · exact same
    · intro u other
      obtain rfl := Option.some.inj (found.symm.trans (same.nextWake_eq.trans other))
      exact beyond

end Same

end Desk

namespace RegistrySession

variable {s u : RegistrySession}

/-- Two sessions with the same tickets and callers, at registries with the same calls. -/
structure Same (s u : RegistrySession) : Prop where
  now : s.now = u.now
  desk : s.desk.Same u.desk
  tickets : s.tickets = u.tickets
  callers : s.callers = u.callers

namespace Same

theorem withRegistry {r q : Registry} (same : s.Same u) (after : r.Same q) :
    (s.withRegistry r).Same (u.withRegistry q) :=
  ⟨same.now, ⟨after, same.desk.waiters, same.desk.ended, same.desk.reaper⟩, same.tickets, same.callers⟩

theorem drop (same : s.Same u) (name : String) : (s.drop name).Same (u.drop name) := by
  unfold RegistrySession.drop
  rw [same.tickets]
  split
  · rename_i t _
    obtain ⟨now, desk, _, callers⟩ := same.withRegistry (same.desk.registry.release t)
    exact ⟨now, desk, rfl, callers⟩
  · exact same

theorem register (same : s.Same u) (id : String) (limit : Limit) (name : String) :
    (s.register id limit name).1 = (u.register id limit name).1 ∧
      (s.register id limit name).2.Same (u.register id limit name).2 := by
  unfold RegistrySession.register
  rw [same.now]
  split
  · exact ⟨rfl, same⟩
  · rename_i id _
    obtain ⟨answer, after⟩ := same.desk.registry.register u.now id (limit.deadline u.now)
    cases first : s.desk.registry.register u.now id (limit.deadline u.now) with
    | mk ticket? r =>
      cases second : u.desk.registry.register u.now id (limit.deadline u.now) with
      | mk other? q =>
        rw [first, second] at answer after
        obtain rfl : ticket? = other? := answer
        cases ticket? with
        | none => exact ⟨rfl, same.withRegistry after⟩
        | some t =>
          have dropped := (same.withRegistry after).drop name
          exact ⟨rfl, dropped.now, dropped.desk, congrArg (Table.put · name t) dropped.tickets, dropped.callers⟩

theorem wait (same : s.Same u) (name : String) (until? : Option Nat) :
    (s.perform (.wait name until?)).1 = (u.perform (.wait name until?)).1 ∧
      (s.perform (.wait name until?)).2.Same (u.perform (.wait name until?)).2 := by
  unfold perform
  dsimp only
  rw [same.tickets, same.callers]
  split
  · exact ⟨rfl, same⟩
  · rename_i t _
    refine ⟨rfl, same.now, ⟨same.desk.registry, ?_, same.desk.ended, same.desk.reaper⟩, rfl, rfl⟩
    exact congrArg (· ++ [_]) same.desk.waiters

theorem abort (same : s.Same u) (name : String) :
    (s.perform (.abort name)).1 = (u.perform (.abort name)).1 ∧
      (s.perform (.abort name)).2.Same (u.perform (.abort name)).2 := by
  unfold perform Desk.abandon?
  dsimp only
  rw [same.callers, same.desk.waiters]
  split
  · exact ⟨rfl, same⟩
  · cases u.desk.waiters.find? _ with
    | none => exact ⟨rfl, same.now, same.desk, same.tickets, rfl⟩
    | some w =>
      refine ⟨rfl, same.now, ⟨same.desk.registry.release w.ticket, rfl, ?_, ?_⟩, same.tickets, rfl⟩
      · exact same.desk.ended
      · exact same.desk.reaper

theorem perform (same : s.Same u) (next : Step) :
    (s.perform next).1 = (u.perform next).1 ∧ (s.perform next).2.Same (u.perform next).2 := by
  cases next with
  | register id limit name => exact same.register id limit name
  | wait name until? => exact same.wait name until?
  | abort name => exact same.abort name
  | drop name =>
    refine ⟨?_, same.drop name⟩
    show Answer.flag (s.tickets.contains name) = Answer.flag (u.tickets.contains name)
    rw [same.tickets]
  | resolve id reply =>
    obtain ⟨answer, after⟩ := same.desk.registry.resolve u.now id reply
    unfold RegistrySession.perform
    rw [same.now]
    exact ⟨congrArg Answer.flag answer, same.withRegistry after⟩
  | cancel id =>
    obtain ⟨answer, after⟩ := same.desk.registry.cancel id
    exact ⟨congrArg Answer.flag answer, same.withRegistry after⟩
  | contains id => exact ⟨congrArg Answer.flag (same.desk.registry.contains_eq id), same⟩
  | evict =>
    obtain ⟨answer, after⟩ := same.desk.registry.sweep u.now
    unfold RegistrySession.perform
    rw [same.now]
    exact ⟨congrArg Answer.count answer, same.withRegistry after⟩
  | sleep time =>
    have passed := same.desk.pass (u.now + time) u.now
    unfold RegistrySession.perform
    rw [same.now]
    exact ⟨rfl, rfl, passed, same.tickets, same.callers⟩
  | reaper interval =>
    unfold RegistrySession.perform
    rw [same.now]
    exact ⟨rfl, rfl, ⟨same.desk.registry, same.desk.waiters, same.desk.ended, rfl⟩, same.tickets, same.callers⟩
  | stopReaper =>
    exact ⟨rfl, same.now, ⟨same.desk.registry, same.desk.waiters, same.desk.ended, rfl⟩, same.tickets, same.callers⟩

theorem step (same : s.Same u) (next : Step) :
    (s.step next).1 = (u.step next).1 ∧ (s.step next).2.1 = (u.step next).2.1 ∧
      (s.step next).2.2.Same (u.step next).2.2 := by
  obtain ⟨answer, after⟩ := same.perform next
  have woken := after.desk.wake (s.perform next).2.now
  rw [after.now] at woken
  unfold RegistrySession.step
  dsimp only
  rw [after.now]
  exact ⟨answer, woken.ended, rfl, ⟨woken.registry, woken.waiters, rfl, woken.reaper⟩, after.tickets, after.callers⟩

end Same

/-- What is seen of a step from outside. -/
def Event.seen (e : Event) : Step × Answer × List Ended × Nat × RegistryStats × Nat :=
  (e.step, e.answer, e.ended, e.after.now, e.after.desk.registry.stats, e.after.desk.registry.pending)

theorem Same.run (same : s.Same u) (steps : List Step) :
    (s.events steps).map Event.seen = (u.events steps).map Event.seen := by
  induction steps generalizing s u with
  | nil => rfl
  | cons next steps ih =>
    obtain ⟨answer, ended, after⟩ := same.step next
    have seen : (s.event next).seen = (u.event next).seen := by
      show (next, (s.step next).1, (s.step next).2.1, (s.step next).2.2.now,
        (s.step next).2.2.desk.registry.stats, (s.step next).2.2.desk.registry.pending) = _
      rw [answer, ended, after.now, after.desk.registry.stats, after.desk.registry.pending_eq]
      rfl
    rw [events, events, List.map_cons, List.map_cons, seen, ih after]

end RegistrySession

/-- Whatever is done with a registry, in any order and at any times, nobody sees how many shards it has
or which hash chooses among them, one shard included. Each entry stands in the shard of its id only. -/
theorem shards_are_unobservable (shards others : Nat) (hash other : String → UInt64) :
    (∀ ops, ((Hall.start shards hash).events ops).map Hall.Event.seen =
          ((Hall.start others other).events ops).map Hall.Event.seen ∧
        (∀ id, ((Hall.start shards hash).after ops).registry.contains id =
          ((Hall.start others other).after ops).registry.contains id) ∧
        ((Hall.start shards hash).after ops).registry.Spread shards hash) ∧
      ∀ steps, ((RegistrySession.ofRegistry (.create shards hash)).events steps).map RegistrySession.Event.seen =
        ((RegistrySession.ofRegistry (.create others other)).events steps).map RegistrySession.Event.seen := by
  constructor
  · intro ops
    obtain ⟨seen, same⟩ := (Hall.start_same shards others hash other).run ops
    exact ⟨seen, same.registry.contains_eq, Hall.after_spread shards hash ops⟩
  · intro steps
    have same : (RegistrySession.ofRegistry (.create shards hash)).Same (.ofRegistry (.create others other)) :=
      ⟨rfl, ⟨Registry.create_same shards others hash other, rfl, rfl, rfl⟩, rfl, rfl⟩
    exact same.run steps

end SoapRelay
