import SoapRelay.Proofs.Callers
import SoapRelay.Proofs.Counters
import SoapRelay.Registry.Watch

/-!
# Waits end on time

Under a clock that is never late a wait ends at the instant at which its registration does, and at its
own limit at the latest. `Waiting` says what is known of a wait that is not over. It is kept by every
operation, since time passes only while nothing has been sent to the caller and its limit is to come. That a
timeout is never early holds under any clock.
-/

namespace SoapRelay.Hall

open Registry

variable {x y : Hall} {op : Op} {ops : List Op} {h : Handle} {t : Ticket} {limit : Nat} {ending : Ending}

/-! ### Time -/

theorem now_step (x : Hall) (op : Op) :
    (x.step op).2.now = x.now ∨ ∃ time, op = .pass time ∧ (x.step op).2.now = x.now + time := by
  cases op with
  | register h deadline =>
    left
    show (x.register h deadline).2.now = x.now
    unfold register
    split
    · rfl
    · split <;> rfl
  | wait h until? =>
    left
    show (x.wait h until?).2.now = x.now
    unfold wait
    split <;> rfl
  | look h =>
    left
    show (x.look h).2.now = x.now
    unfold look
    split
    · split <;> rfl
    · rfl
  | drop h =>
    left
    show (x.drop h).2.now = x.now
    unfold drop
    split <;> rfl
  | resolve id reply => exact Or.inl rfl
  | cancel id => exact Or.inl rfl
  | sweep => exact Or.inl rfl
  | pass time => exact Or.inr ⟨time, rfl, rfl⟩

theorem now_le_step (x : Hall) (op : Op) : x.now ≤ (x.step op).2.now := by
  rcases now_step x op with same | ⟨time, _, later⟩
  · exact Nat.le_of_eq same.symm
  · omega

theorem Punctual.append {first second : List Op} (punctual : x.Punctual (first ++ second)) :
    x.Punctual first ∧ (x.after first).Punctual second := by
  induction first generalizing x with
  | nil => exact ⟨trivial, punctual⟩
  | cons op ops ih => exact ⟨⟨punctual.1, (ih punctual.2).1⟩, (ih punctual.2).2⟩

/-! ### A caller that waits -/

/-- A caller that waits goes on waiting unless it is told how its call ended, or leaves. -/
theorem waits_or_goes (sound : x.Sound) (held : x.holds h = some ⟨t, some limit⟩) (op : Op) :
    (x.step op).2.holds h = some ⟨t, some limit⟩ ∨
      ((∃ ending, (x.event op).Tells t ending) ∨ op = .drop h) ∧ (x.step op).2.holds h = none := by
  have event : x.event op = ⟨x, op, (x.step op).1, (x.step op).2⟩ := rfl
  have change := step_change sound op
  rw [event]
  generalize (x.step op).1 = answer at change ⊢
  generalize (x.step op).2 = y at change ⊢
  -- Either this caller goes, or what happens is about another handle.
  have other : ∀ {k : Handle} {r' : Registry} (hold? : Option Hold), h ≠ k →
      ((x.withRegistry r').withHold k hold?).holds h = some ⟨t, some limit⟩ :=
    fun _ different => (Function.update_of_ne different _ _).trans held
  cases change with
  | @registers k _ _ r' free _ _ =>
    refine Or.inl (other _ ?_)
    rintro rfl
    cases free.symm.trans held
  | nothing => exact Or.inl held
  | passes => exact Or.inl held
  | @waits k _ _ _ taken =>
    refine Or.inl ((Function.update_of_ne ?_ _ _).trans held)
    rintro rfl
    cases taken.symm.trans held
  | @finds k ticket _ ending _ taken _ _ =>
    by_cases same : h = k
    · subst same
      cases held.symm.trans taken
      exact Or.inr ⟨Or.inl ⟨ending, rfl, h, _, rfl, taken, rfl⟩, Function.update_self ..⟩
    · exact Or.inl (other _ same)
  | @elapses k ticket _ _ taken _ _ _ =>
    by_cases same : h = k
    · subst same
      cases held.symm.trans taken
      exact Or.inr ⟨Or.inl ⟨.timedOut, rfl, h, _, rfl, taken, rfl⟩, Function.update_self ..⟩
    · exact Or.inl (other _ same)
  | @leaves k _ _ _ _ _ =>
    by_cases same : h = k
    · subst same
      exact Or.inr ⟨Or.inr rfl, Function.update_self ..⟩
    · exact Or.inl (other _ same)
  | @forgets k _ _ _ _ _ =>
    by_cases same : h = k
    · subst same
      exact Or.inr ⟨Or.inr rfl, Function.update_self ..⟩
    · exact Or.inl (other _ same)
  | resolves => exact Or.inl held
  | cancels => exact Or.inl held
  | sweeps => exact Or.inl held

/-- Nobody holds a ticket any more. -/
structure Departed (x : Hall) (t : Ticket) : Prop where
  issued : t.serial < x.registry.nextSerial
  gone : ∀ h hold, x.holds h = some hold → hold.ticket.serial ≠ t.serial

theorem Departed.step (departed : x.Departed t) (sound : x.Sound) (op : Op) : (x.step op).2.Departed t := by
  refine ⟨Nat.lt_of_lt_of_le departed.issued (nextSerial_le sound op), ?_⟩
  intro h hold held same
  rcases hold_of_step sound op held with ⟨old, before, ticket⟩ | ⟨_, fresh⟩
  · exact departed.gone h old before (ticket ▸ same)
  · have issued := departed.issued
    omega

theorem Departed.not_tells (departed : x.Departed t) : ¬(x.event op).Tells t ending := by
  rintro ⟨_, h, hold, _, held, rfl⟩
  exact departed.gone h hold held rfl

theorem departed_of_none (sound : x.Sound) {hold : Hold} (held : x.holds h = some hold) (op : Op)
    (gone : (x.step op).2.holds h = none) : (x.step op).2.Departed hold.ticket := by
  have issued := sound.issued h hold held
  refine ⟨Nat.lt_of_lt_of_le issued (nextSerial_le sound op), ?_⟩
  intro k other after same
  rcases hold_of_step sound op after with ⟨old, before, ticket⟩ | ⟨_, fresh⟩
  · rw [← ticket] at same
    obtain rfl := sound.own k h old hold before held same
    rw [gone] at after
    cases after
  · omega

/-! ### What is known of a wait that is not over -/

/-- A wait that began in one hall is not over in another, after some events. -/
structure Waiting (x : Hall) (h : Handle) (t : Ticket) (limit : Nat) (past : List Event) (y : Hall) : Prop where
  held : y.holds h = some ⟨t, some limit⟩
  since : x.now ≤ y.now
  within : y.now ≤ max x.now limit
  /-- An ending that was there already is there still, and no time has passed. -/
  found : ∀ ending, x.registry.slot t = .filled ending → y.registry.slot t = .filled ending ∧ y.now = x.now
  /-- An ending that came later has come just now. -/
  came : ∀ ending, x.registry.slot t = .empty → y.registry.slot t = .filled ending →
    ∃ c ∈ past, c.Ends t ∧ c.Brings t ending ∧ c.before.now = y.now

theorem slot_of_held (sound : x.Sound) {hold : Hold} (held : x.holds h = some hold) :
    x.registry.slot hold.ticket = .empty ∨ ∃ ending, x.registry.slot hold.ticket = .filled ending := by
  rcases sound.served h hold held with pends | ⟨ending, left⟩
  · exact Or.inl ((slot_eq_empty_iff sound.valid).mpr pends)
  · exact Or.inr ⟨ending, (slot_eq_filled_iff sound.valid).mpr left⟩

/-- A settled hall has nothing for a caller that waits, and its time is to come. -/
theorem Settled.waits (settled : x.Settled) (sound : x.Sound) (held : x.holds h = some ⟨t, some limit⟩) :
    x.registry.slot t = .empty ∧ x.now < limit := by
  have nothing := settled h t limit held
  rw [await_fst] at nothing
  rcases slot_of_held sound held with empty | ⟨ending, filled⟩
  · refine ⟨empty, ?_⟩
    rw [empty] at nothing
    by_contra late
    simp [Slot.told?, Nat.le_of_not_lt late] at nothing
  · rw [filled] at nothing
    cases nothing

theorem gone_of_dismisses (sound : x.Sound) {hold : Hold} (held : x.holds h = some hold)
    (dismisses : (x.event op).Dismisses h t ending) : (x.step op).2.holds h = none := by
  rcases dismisses with drops | ⟨looks, tells⟩
  · obtain rfl : op = .drop h := drops
    show (x.drop h).2.holds h = none
    unfold drop
    rw [held]
    exact Function.update_self ..
  · obtain ⟨⟨k, _, _, _, same, none⟩, _⟩ := tells_cases sound tells
    obtain rfl := Op.look.inj (looks.symm.trans same)
    exact none

/-- What is in the slot of a caller stays there while the caller stays. -/
theorem filled_stays (sound : x.Sound) {hold : Hold} (held : x.holds h = some hold)
    (filled : x.registry.slot hold.ticket = .filled ending) (stays : (x.step op).2.holds h ≠ none) :
    (x.step op).2.registry.slot hold.ticket = .filled ending := by
  rcases filled_of_step sound op ⟨hold, held, rfl⟩ filled with dismisses | ⟨_, still⟩
  · exact absurd (gone_of_dismisses sound held dismisses) stays
  · exact still

theorem Waiting.step {past : List Event} (waiting : Waiting x h t limit past y) (sound : y.Sound)
    (punctual : ∀ time, op = .pass time → y.MayPass time)
    (stays : (y.step op).2.holds h = some ⟨t, some limit⟩) :
    Waiting x h t limit (past ++ [y.event op]) (y.step op).2 := by
  have since := waiting.since
  have within := waiting.within
  have still : ∀ {ending}, y.registry.slot t = .filled ending → (y.step op).2.registry.slot t = .filled ending :=
    fun filled => filled_stays sound waiting.held filled (by rw [stays]; exact nofun)
  rcases now_step y op with same | ⟨time, rfl, later⟩
  · refine ⟨stays, by omega, by omega, ?_, ?_⟩
    · intro ending filled
      obtain ⟨there, now⟩ := waiting.found ending filled
      exact ⟨still there, same.trans now⟩
    · intro ending empty filled
      rcases slot_of_held sound waiting.held with before | ⟨other, before⟩
      · have left := (slot_eq_filled_iff (step_sound sound op).valid).mp filled
        rcases left_of_step sound op waiting.held left with already | ⟨ends, brings⟩
        · rw [(slot_eq_filled_iff sound.valid).mpr already] at before
          cases before
        · exact ⟨_, List.mem_append_right _ (List.mem_singleton_self _), ends, brings, same.symm⟩
      · obtain rfl := Slot.filled.inj (filled.symm.trans (still before))
        obtain ⟨c, member, ends, brings, now⟩ := waiting.came ending empty before
        exact ⟨c, List.mem_append_left _ member, ends, brings, now.trans same.symm⟩
  · have idle := punctual time rfl
    have empty := (idle.settled.waits sound waiting.held).1
    have bound := idle.within h t limit waiting.held
    refine ⟨stays, by omega, by omega, ?_, ?_⟩
    · intro ending filled
      rw [(waiting.found ending filled).1] at empty
      cases empty
    · intro ending _ filled
      have filled : y.registry.slot t = .filled ending := filled
      rw [empty] at filled
      cases filled

theorem Departed.after (departed : x.Departed t) (sound : x.Sound) (ops : List Op) : (x.after ops).Departed t := by
  induction ops generalizing x with
  | nil => exact departed
  | cons op ops ih => exact ih (departed.step sound op) (step_sound sound op)

/-- The caller is told how its call ended, or leaves. -/
def Goes (events : List Event) (h : Handle) (t : Ticket) : Prop :=
  (∃ e ∈ events, ∃ ending, e.Tells t ending) ∨ ∃ e ∈ events, e.op = .drop h ∧ e.before.Holds h t

theorem waiting_after {past : List Event} (waiting : Waiting x h t limit past y) (sound : y.Sound)
    (punctual : y.Punctual ops) : Waiting x h t limit (past ++ y.events ops) (y.after ops) ∨
      Goes (y.events ops) h t ∧ (y.after ops).Departed t := by
  induction ops generalizing y past with
  | nil =>
    rw [events, List.append_nil]
    exact Or.inl waiting
  | cons op ops ih =>
    have good := step_sound sound op
    rcases waits_or_goes sound waiting.held op with stays | ⟨goes, none⟩
    · rcases ih (waiting.step sound punctual.1 stays) good punctual.2 with waits | ⟨goes, departed⟩
      · rw [List.append_assoc] at waits
        exact Or.inl waits
      · refine Or.inr ⟨?_, departed⟩
        rcases goes with ⟨e, member, tells⟩ | ⟨e, member, drops⟩
        · exact Or.inl ⟨e, List.mem_cons_of_mem _ member, tells⟩
        · exact Or.inr ⟨e, List.mem_cons_of_mem _ member, drops⟩
    · refine Or.inr ⟨?_, (departed_of_none sound waiting.held op none).after good ops⟩
      rcases goes with tells | drops
      · exact Or.inl ⟨_, List.mem_cons_self, tells⟩
      · exact Or.inr ⟨_, List.mem_cons_self, drops, _, waiting.held, rfl⟩

theorem wait_waiting (held : x.holds h = some ⟨t, none⟩) (until? : Option Nat) :
    Waiting x h t (t.limit (until?.getD t.deadline)) [] (x.step (.wait h until?)).2 := by
  have after : (x.step (.wait h until?)).2 =
      x.withHold h (some ⟨t, some (t.limit (until?.getD t.deadline))⟩) := by
    show (x.wait h until?).2 = _
    unfold wait
    rw [held]
  rw [after]
  refine ⟨Function.update_self .., Nat.le_refl _, Nat.le_max_left .., fun ending filled => ⟨filled, rfl⟩, ?_⟩
  intro ending empty filled
  have filled : x.registry.slot t = .filled ending := filled
  rw [empty] at filled
  cases filled

/-! ### Never early -/

/-- A timeout that is left for a caller has been left since its deadline. -/
def Timely (x : Hall) : Prop :=
  ∀ h hold, x.holds h = some hold → (hold.ticket.serial, .timedOut) ∈ x.registry.endings → hold.ticket.deadline ≤ x.now

theorem expired_of_ends (sound : x.Sound) (paired : x.Paired) (holds : x.Holds h t)
    (ends : (x.event .sweep).Ends t) : t.deadline ≤ x.now := by
  obtain ⟨⟨p, pending, same⟩, gone⟩ := (ends_iff sound).mp ends
  have deadline := congrArg Ticket.deadline (paired.ticket_eq sound holds pending same)
  by_contra early
  have stays : Registry.early x.now (t.id, p) = true := by
    have later : x.now < p.deadline := by
      have deadline : t.deadline = p.deadline := deadline
      omega
    simpa [Registry.early] using later
  exact gone ⟨p, (sweep_sheds sound.valid x.now).mem_entries.mpr ⟨pending, stays⟩, same⟩

theorem Timely.step (timely : x.Timely) (sound : x.Sound) (paired : x.Paired) (op : Op) : (x.step op).2.Timely := by
  intro h hold held left
  have later := now_le_step x op
  rcases hold_of_step sound op held with ⟨old, before, ticket⟩ | ⟨starts, _⟩
  · rw [← ticket] at left ⊢
    rcases left_of_step sound op before left with already | ⟨ends, brings⟩
    · exact Nat.le_trans (timely h old before already) later
    · obtain rfl : op = .sweep := brings
      exact Nat.le_trans (expired_of_ends sound paired ⟨old, before, rfl⟩ ends) later
  · exact absurd (starts_serial sound starts).2.2 (not_pends_of_left (step_sound sound op) left)

theorem after_timely (shards : Nat) (hash : String → UInt64) (ops : List Op) :
    ((start shards hash).after ops).Timely := by
  induction ops using List.reverseRecOn with
  | nil =>
    intro h hold held
    cases held
  | append_singleton ops op ih =>
    rw [after_append]
    exact ih.step (after_sound (start_sound shards hash) ops)
      (after_paired (start_sound shards hash) (start_paired shards hash) ops) op

/-! ### How a wait ends -/

/-- The wait runs out: the call is taken out and counted. -/
structure Event.RunsOut (e : Event) (t : Ticket) (ending : Ending) : Prop where
  timedOut : ending = .timedOut
  ends : e.Ends t
  counted : e.after.registry.stats.timedOut = e.before.registry.stats.timedOut + 1

/-- A caller that waits is told what was sent to it, or its wait has run out. -/
theorem tells_of_wait (sound : x.Sound) (held : x.holds h = some ⟨t, some limit⟩)
    (tells : (x.event op).Tells t ending) : x.registry.slot t = .filled ending ∨
      limit ≤ x.now ∧ (x.event op).RunsOut t ending := by
  obtain ⟨⟨k, hold, there, same, rfl, _⟩, left | ⟨rfl, ends⟩⟩ := tells_cases sound tells
  · exact Or.inl ((slot_eq_filled_iff sound.valid).mpr left)
  · obtain rfl := sound.own k h _ _ there held (congrArg Ticket.serial same)
    have told := told_of_look held tells.1
    have empty := (slot_eq_empty_iff sound.valid).mpr ((ends_iff sound).mp ends).1
    have absent : x.registry.endingOf? t = none := by
      unfold slot at empty
      split at empty
      · cases empty
      · assumption
    have late : limit ≤ x.now := by
      rw [empty] at told
      by_contra early
      simp [Slot.told?, early] at told
    refine Or.inr ⟨late, rfl, ends, ?_⟩
    have registry : (x.event (.look k)).after.registry = (x.registry.await t limit x.now).2 := by
      show (x.look k).2.registry = _
      unfold look
      rw [held]
      dsimp only
      split
      · rename_i awaited
        rw [awaited]
        rfl
      · rename_i awaited
        rw [awaited]
        rfl
    rw [registry, stats_await, if_pos ⟨absent, late, ends.1⟩]
    rfl

theorem exists_split_of_events {past future : List Event} {e : Event} (split : x.events ops = past ++ e :: future) :
    ∃ first op later, ops = first ++ op :: later ∧ past = x.events first ∧ e = (x.after first).event op := by
  induction past generalizing x ops with
  | nil =>
    cases ops with
    | nil => cases split
    | cons op ops =>
      obtain ⟨rfl, _⟩ := List.cons.inj split
      exact ⟨[], op, ops, rfl, rfl, rfl⟩
  | cons c past ih =>
    cases ops with
    | nil => cases split
    | cons op ops =>
      obtain ⟨rfl, rest⟩ := List.cons.inj split
      obtain ⟨first, next, later, rfl, rfl, rfl⟩ := ih rest
      exact ⟨op :: first, next, later, rfl, rfl, rfl⟩

/-- How a wait comes out that begins in one hall, until its limit, and has gone on for some operations in
another. -/
structure EndsOnTime (x : Hall) (h : Handle) (t : Ticket) (limit : Nat) (y : Hall) (ops : List Op) : Prop where
  /-- What was sent already is told at once. -/
  atOnce : ∀ sent, x.registry.slot t = .filled sent → ∀ e ∈ y.events ops, ∀ ending, e.Tells t ending →
    ending = sent ∧ e.before.now = x.now
  /-- Otherwise the wait ends when its registration is ended by another operation, or runs out. -/
  inTime : x.registry.slot t = .empty → ∀ past e future, y.events ops = past ++ e :: future →
    ∀ ending, e.Tells t ending → e.before.now ≤ max x.now limit ∧
      ((∃ c ∈ past, c.Ends t ∧ c.Brings t ending ∧ c.before.now = e.before.now) ∨
        e.before.now = max x.now limit ∧ e.RunsOut t ending)
  neverEarly : ∀ e ∈ y.events ops, e.Tells t .timedOut → limit ≤ e.before.now
  /-- A caller that has not been told and has not left can have waited so long and no longer. -/
  meanwhile : Goes (y.events ops) h t ∨
    (y.after ops).holds h = some ⟨t, some limit⟩ ∧ (y.after ops).now ≤ max x.now limit ∧
      ((∃ sent, x.registry.slot t = .filled sent) → (y.after ops).now = x.now) ∧
      ((y.after ops).Settled → x.registry.slot t = .empty ∧ (y.after ops).now < limit)

theorem Waiting.endsOnTime (begins : Waiting x h t limit [] y) (sound : y.Sound)
    (open_ : x.registry.slot t ≠ .closed) (due : limit ≤ t.deadline)
    (timely : ∀ ops, (y.after ops).Timely) (punctual : y.Punctual ops) : EndsOnTime x h t limit y ops := by
  -- Whoever is told is the caller that waits, as far as the run has come.
  have told : ∀ {past e future ending}, y.events ops = past ++ e :: future → e.Tells t ending →
      Waiting x h t limit past e.before ∧ e.before.Timely ∧ e.before.Sound ∧
        (e.before.registry.slot t = .filled ending ∨ limit ≤ e.before.now ∧ e.RunsOut t ending) := by
    intro past e future ending split tells
    obtain ⟨first, op, later, rfl, rfl, rfl⟩ := exists_split_of_events split
    rcases waiting_after begins sound punctual.append.1 with waiting | ⟨_, departed⟩
    · have good := after_sound sound first
      exact ⟨waiting, timely first, good, tells_of_wait good waiting.held tells⟩
    · exact absurd tells departed.not_tells
  refine ⟨?_, ?_, ?_, ?_⟩
  · intro sent filled e member ending tells
    obtain ⟨past, future, split⟩ := List.append_of_mem member
    obtain ⟨waiting, _, good, cause⟩ := told split tells
    obtain ⟨there, now⟩ := waiting.found sent filled
    refine ⟨?_, now⟩
    rcases cause with same | ⟨_, runsOut⟩
    · exact Slot.filled.inj (same.symm.trans there)
    · have empty := (slot_eq_empty_iff good.valid).mpr ((pends_iff good).mp runsOut.ends.1)
      cases empty.symm.trans there
  · intro empty past e future split ending tells
    obtain ⟨waiting, _, _, cause⟩ := told split tells
    have since := waiting.since
    have within := waiting.within
    refine ⟨within, ?_⟩
    rcases cause with filled | ⟨late, runsOut⟩
    · exact Or.inl (waiting.came ending empty filled)
    · exact Or.inr ⟨by omega, runsOut⟩
  · intro e member tells
    obtain ⟨past, future, split⟩ := List.append_of_mem member
    obtain ⟨waiting, timely, good, filled | ⟨late, _⟩⟩ := told split tells
    · have left := (slot_eq_filled_iff good.valid).mp filled
      exact Nat.le_trans due (timely h _ waiting.held left)
    · exact late
  · rcases waiting_after begins sound punctual with waiting | ⟨goes, _⟩
    · refine Or.inr ⟨waiting.held, waiting.within, fun ⟨sent, filled⟩ => (waiting.found sent filled).2, ?_⟩
      intro settled
      obtain ⟨empty, early⟩ := settled.waits (after_sound sound ops) waiting.held
      refine ⟨?_, early⟩
      cases slot : x.registry.slot t with
      | empty => rfl
      | filled sent => cases empty.symm.trans (waiting.found sent slot).1
      | closed => exact absurd slot open_
    · exact Or.inl goes

/-- Under a clock that is never late a wait ends at once if it can, and otherwise at the instant at which its
registration does, which is at the latest when the time it waits for or its deadline has come. A timeout is
never early. -/
theorem waits_end_on_time (shards : Nat) (hash : String → UInt64) (past : List Op) (h : Handle) (t : Ticket)
    (until? : Option Nat) (rest : List Op) (held : ((start shards hash).after past).holds h = some ⟨t, none⟩)
    (punctual : (((start shards hash).after past).step (.wait h until?)).2.Punctual rest) :
    EndsOnTime ((start shards hash).after past) h t (t.limit (until?.getD t.deadline))
      (((start shards hash).after past).step (.wait h until?)).2 rest := by
  have sound := after_sound (start_sound shards hash) past
  have timely : ∀ ops, ((((start shards hash).after past).step (.wait h until?)).2.after ops).Timely := by
    intro ops
    have timely := after_timely shards hash (past ++ .wait h until? :: ops)
    rw [after_append] at timely
    exact timely
  refine (wait_waiting held until?).endsOnTime (step_sound sound _) ?_ (Nat.min_le_right _ _) timely punctual
  rcases slot_of_held sound held with empty | ⟨ending, filled⟩
  · rw [empty]
    exact nofun
  · rw [filled]
    exact nofun

theorem holds_register (x : Hall) {k : Handle} (other : k ≠ h) (deadline : Nat) :
    (x.register h deadline).2.holds k = x.holds k := by
  unfold register
  split
  · rfl
  · split
    · rfl
    · exact Function.update_of_ne other _ _

theorem holds_wait (x : Hall) {k : Handle} (other : k ≠ h) (until? : Option Nat) :
    (x.wait h until?).2.holds k = x.holds k := by
  unfold wait
  split
  · exact Function.update_of_ne other _ _
  · rfl

/-- A wait whose time comes at the very instant of the reply. -/
def tie : List Op := [.pass 5, .resolve "again" "one", .look ⟨again, 1⟩]

def tied : Hall := (((start 1 mix).after [.register ⟨again, 1⟩ 9]).step (.wait ⟨again, 1⟩ (some 5))).2

theorem tie_punctual : tied.Punctual tie := by
  have only : ∀ h t limit, tied.holds h = some ⟨t, some limit⟩ → h = ⟨again, 1⟩ := by
    intro h t limit held
    by_contra other
    have none : tied.holds h = (start 1 mix).holds h :=
      (holds_wait _ other _).trans (holds_register _ other _)
    cases none.symm.trans held
  have there : tied.holds ⟨again, 1⟩ = some ⟨⟨"again", 0, 9⟩, some 5⟩ := by decide +kernel
  have idle : tied.MayPass 5 := by
    constructor
    · intro h t limit held
      obtain rfl := only h t limit held
      cases there.symm.trans held
      decide +kernel
    · intro h t limit held
      obtain rfl := only h t limit held
      cases there.symm.trans held
      decide +kernel
  refine ⟨fun time same => ?_, nofun, nofun, trivial⟩
  cases same
  exact idle

/-- The caller is told the reply, which was there before it looked, although its time had come. -/
theorem waits_end_on_time_of_tie :
    ((start 1 mix).after [.register ⟨again, 1⟩ 9]).holds ⟨again, 1⟩ = some ⟨⟨"again", 0, 9⟩, none⟩ ∧
      tied.Punctual tie ∧ ∃ c ∈ tied.events (tie.take 2),
        c.Ends ⟨"again", 0, 9⟩ ∧ c.Brings ⟨"again", 0, 9⟩ (.reply "one") ∧ c.before.now = 5 := by
  have held : ((start 1 mix).after [.register ⟨again, 1⟩ 9]).holds ⟨again, 1⟩ = some ⟨⟨"again", 0, 9⟩, none⟩ := by
    decide +kernel
  have ends := waits_end_on_time 1 mix [.register ⟨again, 1⟩ 9] _ _ (some 5) tie held tie_punctual
  have tells : ((tied.after (tie.take 2)).event (.look ⟨again, 1⟩)).Tells ⟨"again", 0, 9⟩ (.reply "one") :=
    ⟨by decide +kernel, _, ⟨⟨"again", 0, 9⟩, some 5⟩, rfl, by decide +kernel, rfl⟩
  have split : tied.events tie =
      tied.events (tie.take 2) ++ (tied.after (tie.take 2)).event (.look ⟨again, 1⟩) :: [] :=
    events_append tied (tie.take 2) [.look ⟨again, 1⟩]
  refine ⟨held, tie_punctual, ?_⟩
  obtain ⟨_, ⟨c, member, ended, brings, now⟩ | ⟨_, runsOut⟩⟩ := ends.inTime (by decide +kernel) _ _ _ split _ tells
  · exact ⟨c, member, ended, brings, now.trans (by decide +kernel)⟩
  · cases runsOut.timedOut

end SoapRelay.Hall
