import SoapRelay.Proofs.Callers
import SoapRelay.Proofs.Counters
import SoapRelay.Proofs.Line
import SoapRelay.Proofs.Punctual
import SoapRelay.Registry.Watch

/-!
# No call outlives its deadline by more than one sweep

What a watch does to its hall is a run of that hall. The reaper's next turn is never late, and it is at most
one interval after the deadline of each pending call, or after its registration if that came later
(`Patrolled`). A sweep takes out the calls that are due and no others.
-/

namespace SoapRelay

/-! ### What a sweep does -/

namespace Registry

variable {r : Registry} {now : Nat}

theorem filter_early (now : Nat) : early now = fun e => decide (now < e.2.deadline) := by
  funext e
  exact decide_not.symm.trans (decide_eq_decide.mpr Nat.not_le)

theorem entries_sweep (valid : r.Valid) (now : Nat) :
    (r.sweep now).2.entries = r.entries.filter fun e => decide (now < e.2.deadline) := by
  rw [(sweep_sheds valid now).entries_eq, filter_early]

theorem expired_sweep (valid : r.Valid) (now : Nat) : (r.sweep now).2.expired now = [] := by
  rw [expired_eq, List.filter_eq_nil_iff]
  intro p member
  obtain ⟨e, stays, rfl⟩ := List.mem_map.mp member
  rw [entries_sweep valid, List.mem_filter] at stays
  have later := of_decide_eq_true stays.2
  simpa using later

/-- Nothing is left for a second sweep. -/
theorem sweep_sweep (valid : r.Valid) (now : Nat) : (r.sweep now).2.sweep now = (0, (r.sweep now).2) := by
  have none := expired_sweep valid now
  have shards : (r.sweep now).2.shards.map
      (fun t => (⟨t.entries.filter fun e => !decide (e.2.deadline ≤ now)⟩ : Table PendingCall)) =
        (r.sweep now).2.shards := by
    show (r.shards.map _).map _ = r.shards.map _
    rw [List.map_map]
    congr 1
    funext t
    show (⟨(t.entries.filter _).filter _⟩ : Table PendingCall) = ⟨t.entries.filter _⟩
    rw [List.filter_filter]
    simp only [Bool.and_self]
  generalize (r.sweep now).2 = swept at none shards ⊢
  obtain ⟨hash, tables, next, endings, stats⟩ := swept
  unfold sweep
  rw [none, shards]
  simp

end Registry

namespace Hall

open Registry

variable {x : Hall} {op : Op}

/-- A sweep takes out the calls that are due, so many of them, and tells their callers. -/
structure Event.Sweeps (c : Event) (n : Nat) : Prop where
  answer : c.answer = .count n
  number : n = (c.before.registry.entries.filter fun e => decide (e.2.deadline ≤ c.before.now)).length
  shards : c.after.registry.shards =
    c.before.registry.shards.map fun t => ⟨t.entries.filter fun e => decide (c.before.now < e.2.deadline)⟩
  callers : c.after.holds = c.before.holds
  /-- The caller of a call that is due is there, and gets a timeout. -/
  due : ∀ e ∈ c.before.registry.entries, e.2.deadline ≤ c.before.now →
    ∃ h, c.before.Holds h ⟨e.1, e.2.serial, e.2.deadline⟩ ∧
      c.before.registry.slot ⟨e.1, e.2.serial, e.2.deadline⟩ = .empty ∧
      c.after.registry.slot ⟨e.1, e.2.serial, e.2.deadline⟩ = .filled .timedOut
  /-- Nobody else gets anything. -/
  others : ∀ h t, c.before.Holds h t → c.before.now < t.deadline ∨ c.before.registry.slot t ≠ .empty →
    c.after.registry.slot t = c.before.registry.slot t
  /-- A second sweep at the same instant finds nothing to do. -/
  again : c.after.step .sweep = (.count 0, c.after)

theorem due_of_empty (sound : x.Sound) (paired : x.Paired) {h : Handle} {t : Ticket} (holds : x.Holds h t)
    (empty : x.registry.slot t = .empty) : x.registry.due? t.id = some t.deadline := by
  obtain ⟨p, pending, same⟩ := (slot_eq_empty_iff sound.valid).mp empty
  have deadline := congrArg Ticket.deadline (paired.ticket_eq sound holds pending same)
  rw [due?, (find?_eq_some_iff sound.valid.toShaped).mpr pending, deadline]
  rfl

theorem sweep_sweeps (sound : x.Sound) (paired : x.Paired) :
    (x.event .sweep).Sweeps (x.registry.expired x.now).length := by
  have valid := sound.valid
  have slot : ∀ {h t}, x.Holds h t → (x.registry.sweep x.now).2.slot t =
      if (x.registry.due? t.id).any (decide <| · ≤ x.now) then (x.registry.slot t).send .timedOut
      else x.registry.slot t := by
    rintro h t ⟨hold, held, rfl⟩
    exact slot_sweep valid (sound.ticket_issued held) x.now
  refine ⟨rfl, ?_, ?_, rfl, ?_, ?_, ?_⟩
  · show _ = (x.registry.entries.filter _).length
    rw [← length_swept]
    congr 2
    funext e
    exact Bool.not_not _
  · rw [← filter_early]
    rfl
  · intro e pending late
    obtain ⟨h, holds⟩ := paired.called e pending
    have empty := (slot_eq_empty_iff (t := ⟨e.1, e.2.serial, e.2.deadline⟩) valid).mpr ⟨e.2, pending, rfl⟩
    refine ⟨h, holds, empty, (slot holds).trans ?_⟩
    rw [due_of_empty sound paired holds empty, empty]
    exact if_pos (decide_eq_true late)
  · intro h t holds spared
    have spared : x.now < t.deadline ∨ x.registry.slot t ≠ .empty := spared
    show (x.registry.sweep x.now).2.slot t = x.registry.slot t
    rw [slot holds]
    by_cases empty : x.registry.slot t = .empty
    · have early := spared.resolve_right (not_not_intro empty)
      rw [due_of_empty sound paired holds empty]
      exact if_neg fun late => absurd (of_decide_eq_true late) (Nat.not_le_of_lt early)
    · rw [Slot.send_of_ne_empty empty, ite_self]
  · exact congrArg (fun swept => (Answer.count swept.1, (x.withRegistry swept.2))) (sweep_sweep valid x.now)

/-- Every pending call was registered, with its deadline, when it says. -/
theorem registered_of_pending (shards : Nat) (hash : String → UInt64) (ops : List Op) {e : String × PendingCall}
    (pending : e ∈ ((start shards hash).after ops).registry.entries) :
    ∃ c ∈ (start shards hash).events ops, c.Starts ⟨e.1, e.2.serial, e.2.deadline⟩ ∧ c.before.now = e.2.created := by
  induction ops using List.reverseRecOn with
  | nil =>
    have none : e ∈ (Registry.create shards hash).entries := pending
    rw [entries_create] at none
    cases none
  | append_singleton ops op ih =>
    have good := after_sound (start_sound shards hash) ops
    have last : ((start shards hash).after ops).events [op] = [((start shards hash).after ops).event op] := rfl
    rw [after_append] at pending
    rw [events_append, last]
    rcases (step_change good op).cases good with ⟨_, _, _, recedes, _⟩ | ⟨_, _, _, _, answer, issued, enters, after⟩
    · obtain ⟨c, member, registered⟩ := ih (recedes.sheds.mem_entries.mp pending).1
      exact ⟨c, List.mem_append_left _ member, registered⟩
    · have pending : e ∈ (((start shards hash).after ops).step op).2.registry.entries := pending
      rw [after] at pending
      rcases enters.mem_entries.mp pending with rfl | old
      · refine ⟨_, List.mem_append_right _ (List.mem_singleton_self _), ?_, rfl⟩
        rw [issued] at answer
        rw [issued]
        exact answer
      · obtain ⟨c, member, registered⟩ := ih old
        exact ⟨c, List.mem_append_left _ member, registered⟩

end Hall

namespace Watch

open Hall Registry

variable {x : Watch} {acts : List Act} {r : Reaper}

/-! ### The hall of a watch -/

theorem reap_eq (x : Watch) : x.reap = match x.reaper? with
    | some r => if r.next ≤ x.hall.now then
        ⟨(x.hall.step .sweep).2, some { r with next := x.hall.now + max 1 r.interval }⟩ else x
    | none => x := by
  obtain ⟨hall, reaper?⟩ := x
  cases reaper? with
  | none => rfl
  | some r =>
    unfold reap Desk.reap
    by_cases due : r.next ≤ hall.now
    · simp only [if_pos due]
      rfl
    · simp only [if_neg due]
      rfl

theorem hall_step (x : Watch) (act : Act) : (x.step act).hall = x.hall.after (x.op? act).toList := by
  cases act with
  | op op => rfl
  | hire interval => rfl
  | dismiss => rfl
  | reap =>
    show x.reap.hall = _
    rw [reap_eq, op?]
    cases some : x.reaper? with
    | none => rfl
    | some r =>
      by_cases due : r.next ≤ x.hall.now
      · simp [due, Hall.after]
      · simp [due, Hall.after]

theorem hall_after (x : Watch) (acts : List Act) : (x.after acts).hall = x.hall.after (x.ops acts) := by
  induction acts generalizing x with
  | nil => rfl
  | cons act acts ih =>
    show ((x.step act).after acts).hall = _
    rw [ih, ops, Hall.after_append, hall_step]

theorem after_append (x : Watch) (first second : List Act) : x.after (first ++ second) = (x.after first).after second :=
  List.foldl_append

theorem ops_append (x : Watch) (first second : List Act) :
    x.ops (first ++ second) = x.ops first ++ (x.after first).ops second := by
  induction first generalizing x with
  | nil => rfl
  | cons act acts ih =>
    show (x.op? act).toList ++ (x.step act).ops (acts ++ second) = _
    rw [ih, ← List.append_assoc]
    rfl

theorem punctual_append {first second : List Act} :
    x.Punctual (first ++ second) ↔ x.Punctual first ∧ (x.after first).Punctual second := by
  induction first generalizing x with
  | nil => exact ⟨fun punctual => ⟨trivial, punctual⟩, And.right⟩
  | cons act acts ih => exact (and_congr_right fun _ => ih).trans and_assoc.symm

/-! ### The next turn of the reaper -/

/-- The turn of the reaper is not past, and it comes within an interval. Unless it has come, it is within an
interval of the deadline of each call, or of its registration if that was later. -/
structure Patrolled (x : Watch) (r : Reaper) : Prop where
  awaited : x.hall.now ≤ r.next
  within : r.next ≤ x.hall.now + max 1 r.interval
  covers : x.hall.now < r.next → ∀ e ∈ x.hall.registry.entries,
    r.next ≤ max e.2.deadline e.2.created + max 1 r.interval

/-- An operation leaves calls in the registry that were there, or registers one now. -/
theorem pending_of_step {y : Hall} (sound : y.Sound) (op : Hall.Op) {e : String × PendingCall}
    (pending : e ∈ (y.step op).2.registry.entries) :
    e ∈ y.registry.entries ∨ e.2.created = y.now ∧ (y.step op).2.now = y.now := by
  rcases (step_change sound op).cases sound with ⟨_, _, _, recedes, _⟩ | ⟨_, _, _, _, _, _, enters, after⟩
  · exact Or.inl (recedes.sheds.mem_entries.mp pending).1
  · rw [after] at pending ⊢
    rcases enters.mem_entries.mp pending with rfl | old
    · exact Or.inr ⟨rfl, rfl⟩
    · exact Or.inl old

theorem Patrolled.op (patrolled : x.Patrolled r) (sound : x.hall.Sound) (some : x.reaper? = some r)
    (op : Hall.Op) (punctual : ∀ time, op = .pass time → x.MayPass time) : (x.step (.op op)).Patrolled r := by
  have awaited := patrolled.awaited
  have within := patrolled.within
  have later := now_le_step x.hall op
  have due : (x.hall.step op).2.now ≤ r.next ∧ ((x.hall.step op).2.now = x.hall.now ∨ x.hall.now < r.next) := by
    rcases now_step x.hall op with same | ⟨time, rfl, passed⟩
    · exact ⟨by omega, Or.inl same⟩
    · have idle := punctual time rfl
      have bound := idle.reaper r some
      exact ⟨by omega, Or.inr (idle.settled.reaper r some)⟩
  refine ⟨due.1, Nat.le_trans within (Nat.add_le_add_right later _), ?_⟩
  intro early e pending
  have early : (x.hall.step op).2.now < r.next := early
  rcases pending_of_step sound op pending with old | ⟨created, _⟩
  · exact patrolled.covers (by omega) e old
  · omega

theorem Patrolled.step (patrolled : ∀ r, x.reaper? = some r → x.Patrolled r) (sound : x.hall.Sound)
    (act : Act) (punctual : ∀ time, act = .op (.pass time) → x.MayPass time)
    (hired : (x.step act).reaper? = some r) : (x.step act).Patrolled r := by
  cases act with
  | op op => exact (patrolled r hired).op sound hired op fun time same => punctual time (congrArg Act.op same)
  | hire interval =>
    obtain rfl := Option.some.inj hired
    refine ⟨Nat.le_refl _, Nat.le_add_right _ _, ?_⟩
    intro early
    exact absurd early (Nat.lt_irrefl _)
  | dismiss => cases hired
  | reap =>
    have hired : x.reap.reaper? = some r := hired
    show x.reap.Patrolled r
    rw [reap_eq] at hired ⊢
    cases before : x.reaper? with
    | none =>
      rw [before] at hired
      cases before.symm.trans hired
    | some s =>
      rw [before] at hired
      dsimp only at hired ⊢
      split at hired
      · next due =>
        obtain rfl := Option.some.inj hired
        rw [if_pos due]
        refine ⟨Nat.le_add_right _ _, Nat.le_refl _, ?_⟩
        intro _ e pending
        have pending : e ∈ (x.hall.registry.sweep x.hall.now).2.entries := pending
        rw [entries_sweep sound.valid, List.mem_filter] at pending
        have early := of_decide_eq_true pending.2
        exact Nat.add_le_add_right (Nat.le_trans (Nat.le_of_lt early) (Nat.le_max_left _ _)) _
      · next due =>
        rw [if_neg due]
        exact patrolled r hired

theorem after_patrolled (shards : Nat) (hash : String → UInt64) (punctual : (start shards hash).Punctual acts)
    (hired : ((start shards hash).after acts).reaper? = some r) :
    ((start shards hash).after acts).Patrolled r := by
  induction acts using List.reverseRecOn generalizing r with
  | nil => cases hired
  | append_singleton acts act ih =>
    obtain ⟨before, now, _⟩ := punctual_append.mp punctual
    rw [after_append] at hired ⊢
    have sound : ((start shards hash).after acts).hall.Sound := by
      rw [hall_after]
      exact after_sound (start_sound shards hash) _
    exact Patrolled.step (fun _ => ih before) sound act now hired

/-! ### In every run -/

theorem lt_of_settled {shards : Nat} {hash : String → UInt64} (punctual : (start shards hash).Punctual acts)
    (settled : ((start shards hash).after acts).Settled) (hired : ((start shards hash).after acts).reaper? = some r)
    (positive : 0 < r.interval) {e : String × PendingCall}
    (pending : e ∈ ((start shards hash).after acts).hall.registry.entries) :
    ((start shards hash).after acts).hall.now < max e.2.deadline e.2.created + r.interval := by
  have early := settled.reaper r hired
  have covered := (after_patrolled shards hash punctual hired).covers early e pending
  omega

/-- In every settled state of a run under a clock that is never late, the calls that are pending while a reaper is
there are younger than one interval, counted from their deadlines or, if these were past, from their
registrations. In all runs a sweep takes out what is due and leaves the rest as it is. -/
theorem no_call_outlives_its_deadline (shards : Nat) (hash : String → UInt64) (acts : List Act) :
    ((start shards hash).Punctual acts → ∀ r, ((start shards hash).after acts).reaper? = some r → 0 < r.interval →
      ((start shards hash).after acts).Settled → ∀ e ∈ ((start shards hash).after acts).hall.registry.entries,
        (∃ c ∈ (Hall.start shards hash).events ((start shards hash).ops acts),
          c.Starts ⟨e.1, e.2.serial, e.2.deadline⟩ ∧ c.before.now = e.2.created) ∧
        ((start shards hash).after acts).hall.now < max e.2.deadline e.2.created + r.interval) ∧
    ∀ c ∈ (Hall.start shards hash).events ((start shards hash).ops acts), c.op = .sweep → ∃ n, c.Sweeps n := by
  constructor
  · intro punctual r hired positive settled e pending
    have young := lt_of_settled punctual settled hired positive pending
    rw [hall_after] at pending
    exact ⟨registered_of_pending shards hash _ pending, young⟩
  · intro c member sweeps
    obtain ⟨past, op, rest, _, rfl⟩ := exists_of_mem_events member
    obtain rfl : op = .sweep := sweeps
    have sound := start_sound shards hash
    exact ⟨_, sweep_sweeps (after_sound sound past) (after_paired sound (start_paired shards hash) past)⟩

/-- Nobody waits at a watch. -/
def Unattended (x : Watch) : Prop :=
  ∀ h t limit, x.hall.holds h ≠ some ⟨t, some limit⟩

theorem Unattended.register (unattended : x.Unattended) (h : Handle) (deadline : Nat) :
    (x.step (.op (.register h deadline))).Unattended := by
  intro k t limit held
  have held : (x.hall.register h deadline).2.holds k = some ⟨t, some limit⟩ := held
  unfold Hall.register at held
  split at held
  · exact unattended k t limit held
  · split at held
    · exact unattended k t limit held
    · rcases holds_withHold held with ⟨_, new⟩ | ⟨_, old⟩
      · cases new
      · exact unattended k t limit old

theorem Unattended.settled (unattended : x.Unattended) (reaper : ∀ r, x.reaper? = some r → x.hall.now < r.next) :
    x.Settled :=
  ⟨fun h t limit held => absurd held (unattended h t limit), reaper⟩

def overdue : CallId := ⟨"overdue", by decide, by decide⟩

/-- A call that is overdue as soon as it is registered, between two turns of the reaper. -/
def between : List Act :=
  [.hire 5, .reap, .op (.register ⟨again, 1⟩ 20), .op (.pass 3), .op (.register ⟨overdue, 2⟩ 1)]

theorem between_punctual : (start 1 mix).Punctual between := by
  have first : ((start 1 mix).after (between.take 3)).Unattended := by
    have none : ((start 1 mix).after (between.take 2)).Unattended := fun h t limit held => by cases held
    exact none.register ⟨again, 1⟩ 20
  refine ⟨nofun, nofun, nofun, fun time same => ?_, nofun, trivial⟩
  cases same
  have hired : ((start 1 mix).after (between.take 3)).reaper? = some ⟨5, 5⟩ := by decide +kernel
  refine ⟨first.settled fun r same => ?_, fun h t limit held => absurd held (first h t limit), fun r same => ?_⟩
  · cases hired.symm.trans same
    decide +kernel
  · cases hired.symm.trans same
    decide +kernel

theorem between_settled : ((start 1 mix).after between).Settled := by
  have first : ((start 1 mix).after (between.take 4)).Unattended := by
    have none : ((start 1 mix).after (between.take 2)).Unattended := fun h t limit held => by cases held
    exact none.register ⟨again, 1⟩ 20
  have hired : ((start 1 mix).after between).reaper? = some ⟨5, 5⟩ := by decide +kernel
  refine (first.register ⟨overdue, 2⟩ 1).settled fun r same => ?_
  cases hired.symm.trans same
  decide +kernel

/-- It is pending in a settled state, and the next turn of the reaper takes it out. -/
theorem no_call_outlives_its_deadline_of_overdue :
    (start 1 mix).Punctual between ∧ ((start 1 mix).after between).Settled ∧
      ("overdue", ⟨1, 3, 1⟩) ∈ ((start 1 mix).after between).hall.registry.entries ∧
      ((start 1 mix).after between).hall.now < max 1 3 + 5 ∧
      ∃ c ∈ (Hall.start 1 mix).events ((start 1 mix).ops (between ++ [.op (.pass 2), .reap])),
        c.before.now = 5 ∧ c.op = .sweep ∧ c.Sweeps 1 := by
  have pending : ("overdue", ⟨1, 3, 1⟩) ∈ ((start 1 mix).after between).hall.registry.entries := by decide +kernel
  obtain ⟨_, young⟩ := (no_call_outlives_its_deadline 1 mix between).1 between_punctual ⟨5, 5⟩ (by decide +kernel)
    (by decide) between_settled _ pending
  refine ⟨between_punctual, between_settled, pending, young, ?_⟩
  have ops : (start 1 mix).ops (between ++ [.op (.pass 2), .reap]) =
      (start 1 mix).ops (between ++ [.op (.pass 2)]) ++ [.sweep] := by decide +kernel
  have member : ((Hall.start 1 mix).after ((start 1 mix).ops (between ++ [.op (.pass 2)]))).event .sweep ∈
      (Hall.start 1 mix).events ((start 1 mix).ops (between ++ [.op (.pass 2), .reap])) := by
    rw [ops, events_append]
    exact List.mem_append_right _ (List.mem_singleton_self _)
  obtain ⟨n, sweeps⟩ := (no_call_outlives_its_deadline 1 mix (between ++ [.op (.pass 2), .reap])).2 _ member rfl
  obtain rfl : n = 1 := sweeps.number.trans (by decide +kernel)
  exact ⟨_, member, by decide +kernel, rfl, sweeps⟩

end Watch

end SoapRelay
