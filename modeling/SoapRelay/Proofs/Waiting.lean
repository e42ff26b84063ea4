import SoapRelay.Proofs.Entries
import SoapRelay.Registry.Desk

/-!
# A caller that waits alone

What the sweeps, a reply and time make of a desk with a single caller, told by what its registry shows.
-/

namespace SoapRelay

namespace Registry

variable {r : Registry} {entries : List (String × PendingCall)} {endings : List (Nat × Ending)} {completed late : UInt64}
  {id : String} {p : PendingCall} {t : Ticket}

/-- The pending calls of a registry, the endings that wait in it, and the counters of replies. -/
structure Shows (r : Registry) (entries : List (String × PendingCall)) (endings : List (Nat × Ending))
    (completed late : UInt64) : Prop where
  valid : r.Valid
  entries : r.entries = entries
  endings : r.endings = endings
  completed : r.stats.completed = completed
  late : r.stats.late = late

namespace Shows

theorem sheds {r' : Registry} {stays : String × PendingCall → Bool} {new : List (Nat × Ending)}
    {kept : Nat × Ending → Bool} (shows : r.Shows entries endings completed late) (sheds : r.Sheds r' stays new kept)
    {completed' late' : UInt64} (more : r'.stats.completed = completed') (others : r'.stats.late = late') :
    r'.Shows (entries.filter stays) (new ++ endings.filter kept) completed' late' := by
  refine ⟨sheds.valid shows.valid, ?_, ?_, more, others⟩
  · rw [sheds.entries_eq, shows.entries]
  · rw [sheds.endings, shows.endings]

theorem create (shards : Nat) (hash : String → UInt64) : (Registry.create shards hash).Shows [] [] 0 0 :=
  ⟨create_valid shards hash, entries_create shards hash, rfl, rfl, rfl⟩

theorem register (shows : r.Shows [] endings completed late) (now : Nat) (id : CallId) (deadline : Nat) :
    (r.register now id deadline).2.Shows [(id.text, ⟨r.nextSerial, now, deadline⟩)] endings completed late := by
  obtain ⟨p, pending, _⟩ | ⟨_, _, enters⟩ := register_cases shows.valid.toShaped now id deadline
  · rw [shows.entries] at pending
    cases pending
  have counters : (r.register now id deadline).2.stats.completed = r.stats.completed ∧
      (r.register now id deadline).2.stats.late = r.stats.late := by
    unfold Registry.register
    dsimp only
    split
    · exact ⟨rfl, rfl⟩
    · exact ⟨rfl, rfl⟩
  refine ⟨enters.valid shows.valid, ?_, ?_, counters.1.trans shows.completed, counters.2.trans shows.late⟩
  · have entries := enters.entries
    rw [shows.entries] at entries
    exact List.perm_singleton.mp entries
  · rw [enters.endings, shows.endings]

theorem sweep_early (shows : r.Shows [(id, p)] endings completed late) {now : Nat} (early : now < p.deadline) :
    (r.sweep now).2.Shows [(id, p)] endings completed late := by
  have none : r.expired now = [] := by
    rw [expired_eq, shows.entries]
    simp [early]
  have swept := shows.sheds (sweep_sheds shows.valid now) shows.completed shows.late
  rw [none, filter_every] at swept
  have stays : Registry.early now (id, p) = true := by simp [Registry.early, early]
  rw [List.filter_cons_of_pos stays] at swept
  exact swept

theorem sweep_due (shows : r.Shows [(id, p)] [] completed late) {now : Nat} (due : p.deadline ≤ now) :
    (r.sweep now).2.Shows [] [(p.serial, .timedOut)] completed late := by
  have all : r.expired now = [p] := by
    rw [expired_eq, shows.entries]
    simp [due]
  have swept := shows.sheds (sweep_sheds shows.valid now) shows.completed shows.late
  rw [all] at swept
  have goes : ¬Registry.early now (id, p) = true := by simp [Registry.early, due]
  rw [List.filter_cons_of_neg goes] at swept
  exact swept

theorem sweep_empty (shows : r.Shows [] endings completed late) (now : Nat) :
    (r.sweep now).2.Shows [] endings completed late := by
  have none : r.expired now = [] := by
    rw [expired_eq, shows.entries]
    rfl
  have swept := shows.sheds (sweep_sheds shows.valid now) shows.completed shows.late
  rw [none, filter_every] at swept
  exact swept

theorem await_counters (r : Registry) (t : Ticket) (until_ now : Nat) :
    (r.await t until_ now).2.stats.completed = r.stats.completed ∧ (r.await t until_ now).2.stats.late = r.stats.late := by
  unfold await
  split
  · exact ⟨rfl, rfl⟩
  · split
    · split
      · exact ⟨rfl, rfl⟩
      · exact ⟨rfl, rfl⟩
    · exact ⟨rfl, rfl⟩

/-- A caller whose ending is there takes it, whatever the time. -/
theorem await_left {ending : Ending} (shows : r.Shows entries [(t.serial, ending)] completed late) (until_ now : Nat) :
    (r.await t until_ now).1 = some ending ∧ (r.await t until_ now).2.Shows entries [] completed late := by
  have left : (t.serial, ending) ∈ r.endings := by
    rw [shows.endings]
    exact List.mem_singleton_self _
  have counters := await_counters r t until_ now
  rcases await_cases shows.valid t until_ now with ⟨other, there, told, sheds⟩ | ⟨absent, _⟩
  · rw [shows.endings, List.mem_singleton] at there
    obtain rfl : other = ending := congrArg Prod.snd there
    refine ⟨told, ?_⟩
    have after := shows.sheds sheds (counters.1.trans shows.completed) (counters.2.trans shows.late)
    rw [filter_every] at after
    simpa using after
  · exact absurd left (absent ending)

theorem await_early (shows : r.Shows entries [] completed late) {until_ now : Nat} (early : now < until_) :
    r.await t until_ now = (none, r) := by
  rcases await_cases shows.valid t until_ now with ⟨_, there, _⟩ | ⟨_, ⟨due, _⟩ | ⟨due, _⟩ | ⟨_, same⟩⟩
  · rw [shows.endings] at there
    cases there
  · omega
  · omega
  · exact same

theorem await_due (shows : r.Shows [(t.id, p)] [] completed late) (own : p.serial = t.serial) {until_ now : Nat}
    (due : until_ ≤ now) :
    (r.await t until_ now).1 = some .timedOut ∧ (r.await t until_ now).2.Shows [] [] completed late := by
  have counters := await_counters r t until_ now
  rcases await_cases shows.valid t until_ now with ⟨_, there, _⟩ | ⟨_, ⟨_, told, _, sheds⟩ | ⟨_, _, none⟩ | ⟨early, _⟩⟩
  · rw [shows.endings] at there
    cases there
  · refine ⟨told, ?_⟩
    have after := shows.sheds sheds (counters.1.trans shows.completed) (counters.2.trans shows.late)
    simpa using after
  · refine absurd ⟨p, ?_, own⟩ none
    rw [shows.entries]
    exact List.mem_singleton_self _
  · omega

theorem resolve_pending (shows : r.Shows [(id, p)] [] completed late) (now : Nat) (reply : String) :
    (r.resolve now id reply).2.Shows [] [(p.serial, .reply reply)] (completed + 1) late := by
  have pending : (id, p) ∈ r.entries := by
    rw [shows.entries]
    exact List.mem_singleton_self _
  have found := (find?_eq_some_iff shows.valid.toShaped).mpr pending
  have counters : (r.resolve now id reply).2.stats.completed = completed + 1 ∧
      (r.resolve now id reply).2.stats.late = late := by
    rw [← shows.completed, ← shows.late, Registry.resolve, found]
    exact ⟨rfl, rfl⟩
  rcases resolve_cases shows.valid.toShaped now id reply with ⟨q, there, _, sheds⟩ | ⟨absent, _⟩
  · rw [shows.entries, List.mem_singleton] at there
    obtain rfl : q = p := congrArg Prod.snd there
    have after := shows.sheds sheds counters.1 counters.2
    simpa using after
  · exact absurd pending (absent p)

theorem resolve_late (shows : r.Shows [] endings completed late) (now : Nat) (id reply : String) :
    (r.resolve now id reply).2.Shows [] endings completed (late + 1) := by
  have absent : r.find? id = none := by
    rw [find?_eq_none_iff shows.valid.toShaped, shows.entries]
    exact fun p => List.not_mem_nil
  have same : (r.resolve now id reply).2 = { r with stats := { r.stats with late := r.stats.late + 1 } } := by
    rw [Registry.resolve, absent]
  rw [same, ← shows.late]
  have sheds : r.Sheds { r with stats := { r.stats with late := r.stats.late + 1 } } every [] every :=
    .nothing rfl rfl (Nat.le_refl _) rfl
  exact ⟨sheds.valid shows.valid, shows.entries, shows.endings, shows.completed, rfl⟩

end Shows

end Registry

namespace Desk

open Registry

variable {d : Desk} {w : Waiter} {p : PendingCall} {now : Nat} {completed late : UInt64} {ending : Ending} {e : Ended}

/-- A caller waits for the end of its call. -/
structure Waits (d : Desk) (w : Waiter) (p : PendingCall) : Prop where
  waiters : d.waiters = [w]
  ended : d.ended = []
  registry : d.registry.Shows [(w.ticket.id, p)] [] 0 0
  own : p.serial = w.ticket.serial
  until_ : p.deadline = w.until_

/-- A caller whose call has ended is yet to look. -/
structure Left (d : Desk) (w : Waiter) (ending : Ending) (completed late : UInt64) : Prop where
  waiters : d.waiters = [w]
  ended : d.ended = []
  registry : d.registry.Shows [] [(w.ticket.serial, ending)] completed late

/-- The caller knows how its call ended. -/
structure Told (d : Desk) (e : Ended) (completed late : UInt64) : Prop where
  waiters : d.waiters = []
  ended : d.ended = [e]
  registry : d.registry.Shows [] [] completed late

theorem reap_cases (d : Desk) (now : Nat) :
    ((d.reap now).registry = d.registry ∨ (d.reap now).registry = (d.registry.sweep now).2) ∧
      (d.reap now).waiters = d.waiters ∧ (d.reap now).ended = d.ended ∧
      ∀ r, (d.reap now).reaper? = some r → now < r.next := by
  unfold reap
  split
  · rename_i r reaps
    split
    · refine ⟨Or.inr rfl, rfl, rfl, ?_⟩
      intro r' same
      obtain rfl := Option.some.inj same
      dsimp only
      omega
    · rename_i early
      refine ⟨Or.inl rfl, rfl, rfl, ?_⟩
      intro r' same
      rw [reaps] at same
      obtain rfl := Option.some.inj same
      omega
  · rename_i none
    refine ⟨Or.inl rfl, rfl, rfl, ?_⟩
    intro r same
    rw [none] at same
    cases same

theorem look_reaper (now : Nat) (d : Desk) (w : Waiter) : (d.look now w).reaper? = d.reaper? := by
  unfold look
  split
  · rfl
  · rfl

theorem settle_reaper (d : Desk) (now : Nat) : (d.settle now).reaper? = d.reaper? := by
  have kept : ∀ (waiters : List Waiter) (d : Desk), (waiters.foldl (look now) d).reaper? = d.reaper? := by
    intro waiters
    induction waiters with
    | nil => exact fun _ => rfl
    | cons w rest ih => exact fun d => (ih _).trans (look_reaper now d w)
  exact kept d.waiters _

/-- After a wake the next sweep lies ahead. -/
theorem wake_reaper (d : Desk) (now : Nat) {r : Reaper} (reaps : (d.wake now).reaper? = some r) : now < r.next := by
  rw [wake, settle_reaper] at reaps
  exact (reap_cases d now).2.2.2 r reaps

theorem settle_one (waiters : d.waiters = [w]) (now : Nat) :
    d.settle now = look now { d with waiters := [] } w := by
  rw [settle, waiters]
  rfl

/-! ### What a wake makes of them -/

theorem Left.settle (left : d.Left w ending completed late) (now : Nat) :
    (d.settle now).Told ⟨w.name, ending, now⟩ completed late := by
  obtain ⟨told, after⟩ := left.registry.await_left w.until_ now
  rw [settle_one left.waiters, look]
  cases answer : d.registry.await w.ticket w.until_ now with
  | mk ending? r =>
    rw [answer] at told after
    obtain rfl : ending? = some ending := told
    dsimp only
    rw [left.ended]
    exact ⟨rfl, rfl, after⟩

theorem Waits.settle_due (waits : d.Waits w p) (due : w.until_ ≤ now) :
    (d.settle now).Told ⟨w.name, .timedOut, now⟩ 0 0 := by
  obtain ⟨told, after⟩ := waits.registry.await_due waits.own due
  rw [settle_one waits.waiters, look]
  cases answer : d.registry.await w.ticket w.until_ now with
  | mk ending? r =>
    rw [answer] at told after
    obtain rfl : ending? = some .timedOut := told
    dsimp only
    rw [waits.ended]
    exact ⟨rfl, rfl, after⟩

theorem Waits.settle_early (waits : d.Waits w p) (early : now < w.until_) : (d.settle now).Waits w p := by
  rw [settle_one waits.waiters, look, waits.registry.await_early early]
  exact ⟨rfl, waits.ended, waits.registry, waits.own, waits.until_⟩

theorem Told.settle (told : d.Told e completed late) (now : Nat) : (d.settle now).Told e completed late := by
  rw [Desk.settle, told.waiters]
  exact ⟨rfl, told.ended, told.registry⟩

theorem Waits.wake_early (waits : d.Waits w p) (early : now < w.until_) : (d.wake now).Waits w p := by
  obtain ⟨registry, waiters, ended, _⟩ := reap_cases d now
  have reaped : (d.reap now).Waits w p := by
    refine ⟨waiters.trans waits.waiters, ended.trans waits.ended, ?_, waits.own, waits.until_⟩
    rcases registry with same | swept
    · rw [same]
      exact waits.registry
    · rw [swept]
      exact waits.registry.sweep_early (waits.until_ ▸ early)
  exact reaped.settle_early early

/-- At its deadline a caller is told so, whether it is swept or looks itself. -/
theorem Waits.wake_due (waits : d.Waits w p) (due : w.until_ ≤ now) :
    (d.wake now).Told ⟨w.name, .timedOut, now⟩ 0 0 := by
  obtain ⟨registry, waiters, ended, _⟩ := reap_cases d now
  rcases registry with same | swept
  · have reaped : (d.reap now).Waits w p :=
      ⟨waiters.trans waits.waiters, ended.trans waits.ended, same ▸ waits.registry, waits.own, waits.until_⟩
    exact reaped.settle_due due
  · have reaped : (d.reap now).Left w .timedOut 0 0 := by
      refine ⟨waiters.trans waits.waiters, ended.trans waits.ended, ?_⟩
      rw [swept, ← waits.own]
      exact waits.registry.sweep_due (waits.until_ ▸ due)
    exact reaped.settle now

theorem Left.wake (left : d.Left w ending completed late) (now : Nat) :
    (d.wake now).Told ⟨w.name, ending, now⟩ completed late := by
  obtain ⟨registry, waiters, ended, _⟩ := reap_cases d now
  have reaped : (d.reap now).Left w ending completed late := by
    refine ⟨waiters.trans left.waiters, ended.trans left.ended, ?_⟩
    rcases registry with same | swept
    · rw [same]
      exact left.registry
    · rw [swept]
      exact left.registry.sweep_empty now
  exact reaped.settle now

theorem Told.wake (told : d.Told e completed late) (now : Nat) : (d.wake now).Told e completed late := by
  obtain ⟨registry, waiters, ended, _⟩ := reap_cases d now
  have reaped : (d.reap now).Told e completed late := by
    refine ⟨waiters.trans told.waiters, ended.trans told.ended, ?_⟩
    rcases registry with same | swept
    · rw [same]
      exact told.registry
    · rw [swept]
      exact told.registry.sweep_empty now
  exact reaped.settle now

end Desk

end SoapRelay
