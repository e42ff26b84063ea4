import SoapRelay.Proofs.Clock
import SoapRelay.Proofs.Slot
import SoapRelay.Proofs.Waiting

/-!
# Desks at rest

A desk that has woken rests until its next timer: nobody there has been sent an ending, nobody's time has
come, and a sweep is not due.
-/

namespace SoapRelay.Desk

open Registry

variable {d : Desk} {now time : Nat}

/-- Nobody has been sent an ending, nobody's time has come, and a sweep is not due. -/
structure Rests (d : Desk) (now : Nat) : Prop where
  waits : ∀ w ∈ d.waiters, d.registry.endingOf? w.ticket = none ∧ now < w.until_
  sweeps : ∀ r, d.reaper? = some r → now < r.next

theorem Rests.wake (rests : d.Rests now) : d.wake now = d := by
  have reap : d.reap now = d := by
    unfold Desk.reap
    split
    · rename_i r reaps
      have early := rests.sweeps r reaps
      exact if_neg (Nat.not_le_of_lt early)
    · rfl
  have seats : ∀ (waiters seated : List Waiter),
      (∀ w ∈ waiters, d.registry.endingOf? w.ticket = none ∧ now < w.until_) →
        waiters.foldl (look now) { d with waiters := seated } = { d with waiters := seated ++ waiters } := by
    intro waiters
    induction waiters with
    | nil =>
      intro seated _
      rw [List.append_nil]
      rfl
    | cons w rest ih =>
      intro seated quiet
      obtain ⟨absent, early⟩ := quiet w List.mem_cons_self
      have first : look now { d with waiters := seated } w = { d with waiters := seated ++ [w] } := by
        rw [look, await_early absent early]
      rw [List.foldl_cons, first, ih _ fun v member => quiet v (List.mem_cons_of_mem w member), List.append_assoc]
      rfl
  rw [Desk.wake, reap, settle, seats d.waiters [] rests.waits]
  rfl

theorem look_quiet (quiet : ∀ v ∈ d.waiters, d.registry.endingOf? v.ticket = none ∧ now < v.until_) (w : Waiter) :
    ∀ v ∈ (d.look now w).waiters, (d.look now w).registry.endingOf? v.ticket = none ∧ now < v.until_ := by
  unfold look
  cases answer : d.registry.await w.ticket w.until_ now with
  | mk ending? r =>
    cases ending? with
    | none =>
      obtain ⟨same, absent, early⟩ := await_waits (congrArg Prod.fst answer)
      obtain rfl : r = d.registry := congrArg Prod.snd (answer.symm.trans same)
      intro v member
      rcases List.mem_append.mp member with before | last
      · exact quiet v before
      · obtain rfl := List.mem_singleton.mp last
        exact ⟨absent, early⟩
    | some ending =>
      have fewer := endings_await d.registry w.ticket w.until_ now
      rw [answer] at fewer
      intro v member
      obtain ⟨absent, early⟩ := quiet v member
      refine ⟨endingOf?_eq_none_iff.mpr fun f left => ?_, early⟩
      exact endingOf?_eq_none_iff.mp absent f (fewer f left)

/-- Whoever has not been told how its call ended once all have looked goes on waiting. -/
theorem rests_wake (d : Desk) (now : Nat) : (d.wake now).Rests now := by
  have looks : ∀ (waiters : List Waiter) (d : Desk),
      (∀ v ∈ d.waiters, d.registry.endingOf? v.ticket = none ∧ now < v.until_) →
        ∀ v ∈ (waiters.foldl (look now) d).waiters,
          (waiters.foldl (look now) d).registry.endingOf? v.ticket = none ∧ now < v.until_ := by
    intro waiters
    induction waiters with
    | nil => exact fun d quiet => quiet
    | cons w rest ih => exact fun d quiet => ih (d.look now w) (look_quiet quiet w)
  exact ⟨looks (d.reap now).waiters { d.reap now with waiters := [] } nofun, fun r => wake_reaper d now⟩

/-! ### Time that passes at a desk -/

/-- When a desk wakes by itself. -/
def timers (d : Desk) : List Nat :=
  d.waiters.map (·.until_) ++ (d.reaper?.map (·.next)).toList

theorem mem_timers :
    time ∈ d.timers ↔ (∃ w ∈ d.waiters, w.until_ = time) ∨ ∃ r, d.reaper? = some r ∧ r.next = time := by
  rw [timers, List.mem_append, List.mem_map, Option.mem_toList, Option.map_eq_some_iff]

theorem Rests.lt_nextWake (rests : d.Rests now) (found : d.nextWake = some time) : now < time := by
  rcases mem_timers.mp (Clock.mem_of_earliest found) with ⟨w, member, rfl⟩ | ⟨r, reaps, rfl⟩
  · exact (rests.waits w member).2
  · exact rests.sweeps r reaps

theorem Rests.later (rests : d.Rests now) (idle : ∀ t, d.nextWake = some t → time < t) : d.Rests time := by
  have early : ∀ u ∈ d.timers, time < u := by
    intro u timer
    obtain ⟨t, found, least⟩ := Clock.exists_earliest_le timer
    exact Nat.lt_of_lt_of_le (idle t found) least
  constructor
  · intro w member
    exact ⟨(rests.waits w member).1, early _ (mem_timers.mpr (Or.inl ⟨w, member, rfl⟩))⟩
  · intro r reaps
    exact early _ (mem_timers.mpr (Or.inr ⟨r, reaps, rfl⟩))

/-- Until its next timer nothing at a desk depends on the time. -/
theorem pass_later (later : now ≤ time) (idle : ∀ t, d.nextWake = some t → time < t) (limit : Nat) :
    Clock.pass nextWake Desk.wake limit time d = Clock.pass nextWake Desk.wake limit now d := by
  cases found : d.nextWake with
  | none =>
    have never : ∀ t, d.nextWake ≠ some t := fun t some => nomatch found.symm.trans some
    rw [Clock.pass_idle fun t some => absurd some (never t), Clock.pass_idle fun t some => absurd some (never t)]
  | some t =>
    have after := idle t found
    by_cases within : t ≤ limit
    · rw [Clock.pass_next found ⟨after, within⟩, Clock.pass_next found ⟨Nat.lt_of_le_of_lt later after, within⟩]
    · have beyond : ∀ now u, d.nextWake = some u → ¬(now < u ∧ u ≤ limit) := by
        rintro now u same ⟨_, early⟩
        obtain rfl := Option.some.inj (found.symm.trans same)
        exact within early
      rw [Clock.pass_idle (beyond time), Clock.pass_idle (beyond now)]

end SoapRelay.Desk
