import Mathlib.Data.List.Induction
import Mathlib.Data.List.Pairwise
import SoapRelay.Proofs.Hall

/-!
# One outcome for each registration

In every run of a hall a registration ends at most once, and its caller is told that ending and no
other: the reply of the one resolution that took it out, a timeout if a sweep or its own wait did, a
cancellation if a cancel did.
-/

namespace SoapRelay.Hall

open Registry

variable {x y : Hall} {op : Op} {ops : List Op} {t : Ticket} {ending : Ending}

namespace Event

/-- A registration begins, and this is its ticket. -/
def Starts (e : Event) (t : Ticket) : Prop :=
  e.answer = .registered t

/-- The registration of a ticket is taken out. -/
def Ends (e : Event) (t : Ticket) : Prop :=
  e.before.registry.owns t = true ∧ e.after.registry.owns t = false

/-- The caller that waits with a ticket is told how its call ended. -/
def Tells (e : Event) (t : Ticket) (ending : Ending) : Prop :=
  e.answer = .told ending ∧ ∃ h hold, e.op = .look h ∧ e.before.holds h = some hold ∧ hold.ticket = t

/-- The operation that leaves an ending for a ticket. -/
def Brings (e : Event) (t : Ticket) : Ending → Prop
  | .reply text => e.op = .resolve t.id text ∧ e.answer = .flag true
  | .timedOut => e.op = .sweep
  | .cancelled => e.op = .cancel t.id ∧ e.answer = .flag true

end Event

/-! ### At most one event -/

def AtMostOne (events : List Event) (p : Event → Prop) : Prop :=
  events.Pairwise fun a b => ¬(p a ∧ p b)

theorem AtMostOne.eq {events : List Event} {p : Event → Prop} (once : AtMostOne events p) {a b : Event}
    (ha : a ∈ events) (hb : b ∈ events) (pa : p a) (pb : p b) : a = b := by
  have symmetric : Std.Symm fun a b : Event => ¬(p a ∧ p b) := ⟨fun _ _ no both => no both.symm⟩
  by_contra different
  exact once.forall ha hb different ⟨pa, pb⟩

/-- An event that leaves a mark, and does not happen where the mark is, happens at most once. -/
theorem atMostOne_events (p : Event → Prop) (mark : Hall → Prop)
    (marks : ∀ y op, Sound y → p (y.event op) → mark (y.step op).2)
    (lasts : ∀ y op, Sound y → mark y → mark (y.step op).2)
    (bars : ∀ y op, Sound y → mark y → ¬p (y.event op)) (sound : x.Sound) (ops : List Op) :
    AtMostOne (x.events ops) p ∧ ∀ e ∈ x.events ops, p e → mark (x.after ops) := by
  induction ops using List.reverseRecOn with
  | nil =>
    refine ⟨List.Pairwise.nil, ?_⟩
    intro e member
    cases member
  | append_singleton ops op ih =>
    obtain ⟨once, marked⟩ := ih
    have good := after_sound sound ops
    have last : (x.after ops).events [op] = [(x.after ops).event op] := rfl
    have next : x.after (ops ++ [op]) = ((x.after ops).step op).2 := after_append x ops [op]
    rw [events_append, last, next]
    constructor
    · refine List.pairwise_append.mpr ⟨once, List.pairwise_singleton _ _, ?_⟩
      intro e member f found both
      obtain rfl := List.mem_singleton.mp found
      exact bars (x.after ops) op good (marked e member both.1) both.2
    · intro e member happened
      rcases List.mem_append.mp member with before | now
      · exact lasts (x.after ops) op good (marked e before happened)
      · obtain rfl := List.mem_singleton.mp now
        exact marks (x.after ops) op good happened

/-! ### What is spent stays spent -/

theorem nextSerial_le (sound : x.Sound) (op : Op) : x.registry.nextSerial ≤ (x.step op).2.registry.nextSerial := by
  rcases (step_change sound op).cases sound with ⟨_, _, _, recedes, _⟩ | ⟨_, _, _, _, _, _, enters, after⟩
  · exact recedes.sheds.serial
  · rw [after]
    have next := enters.serial
    show _ ≤ Registry.nextSerial _
    exact next ▸ Nat.le_succ _

theorem pends_of_step (sound : x.Sound) (op : Op) (pends : Pends (x.step op).2.registry t) :
    Pends x.registry t ∨ t.serial = x.registry.nextSerial := by
  obtain ⟨p, pending, same⟩ := pends
  rcases (step_change sound op).cases sound with ⟨_, _, _, recedes, _⟩ | ⟨_, _, _, _, _, issued, enters, after⟩
  · exact Or.inl ⟨p, (recedes.sheds.mem_entries.mp pending).1, same⟩
  · rw [after] at pending
    rcases enters.mem_entries.mp pending with new | old
    · have serial := congrArg (fun e => e.2.serial) new
      rw [issued] at serial
      exact Or.inr (same.symm.trans serial)
    · exact Or.inl ⟨p, old, same⟩

theorem hold_of_step (sound : x.Sound) (op : Op) {h : Handle} {hold : Hold}
    (held : (x.step op).2.holds h = some hold) :
    (∃ old, x.holds h = some old ∧ old.ticket = hold.ticket) ∨
      (x.event op).Starts hold.ticket ∧ hold.ticket.serial = x.registry.nextSerial := by
  rcases (step_change sound op).cases sound with
    ⟨_, _, _, recedes, _⟩ | ⟨k, _, _, _, answer, issued, _, after⟩
  · exact Or.inl (recedes.held h hold held)
  · rw [after] at held
    rcases holds_withHold held with ⟨_, same⟩ | ⟨_, before⟩
    · obtain rfl := Option.some.inj same
      refine Or.inr ⟨answer, ?_⟩
      show Ticket.serial _ = _
      rw [issued]
    · exact Or.inl ⟨hold, before, rfl⟩

theorem starts_serial (sound : x.Sound) (starts : (x.event op).Starts t) :
    t.serial = x.registry.nextSerial ∧ (x.step op).2.registry.nextSerial = x.registry.nextSerial + 1 ∧
      Pends (x.step op).2.registry t := by
  have starts : (x.step op).1 = .registered t := starts
  rcases (step_change sound op).cases sound with ⟨_, _, _, _, quiet⟩ | ⟨_, _, _, _, answer, issued, enters, after⟩
  · exact absurd starts (quiet t)
  · obtain rfl := Answer.registered.inj (starts.symm.trans answer)
    rw [after]
    refine ⟨?_, enters.serial, _, enters.mem_entries.mpr (Or.inl rfl), rfl⟩
    rw [issued]

theorem pends_iff (sound : x.Sound) : x.registry.owns t = true ↔ Pends x.registry t :=
  owns_iff sound.valid.toShaped

theorem ends_iff (sound : x.Sound) :
    (x.event op).Ends t ↔ Pends x.registry t ∧ ¬Pends (x.step op).2.registry t := by
  rw [← pends_iff sound, ← pends_iff (step_sound sound op), Bool.not_eq_true]
  rfl

theorem pends_issued (sound : x.Sound) (pends : Pends x.registry t) : t.serial < x.registry.nextSerial := by
  obtain ⟨p, pending, same⟩ := pends
  exact same ▸ sound.valid.issued _ pending

theorem atMostOne_ends (sound : x.Sound) (ops : List Op) (t : Ticket) :
    AtMostOne (x.events ops) (·.Ends t) := by
  refine (atMostOne_events (·.Ends t) (fun y => t.serial < y.registry.nextSerial ∧ ¬Pends y.registry t)
    ?_ ?_ ?_ sound ops).1
  · intro y op good ends
    obtain ⟨pends, gone⟩ := (ends_iff good).mp ends
    have issued := pends_issued good pends
    exact ⟨Nat.lt_of_lt_of_le issued (nextSerial_le good op), gone⟩
  · rintro y op good ⟨issued, gone⟩
    refine ⟨Nat.lt_of_lt_of_le issued (nextSerial_le good op), fun pends => ?_⟩
    rcases pends_of_step good op pends with before | fresh
    · exact gone before
    · omega
  · rintro y op good ⟨_, gone⟩ ends
    exact gone ((ends_iff good).mp ends).1

theorem atMostOne_starts (sound : x.Sound) (ops : List Op) (serial : Nat) :
    AtMostOne (x.events ops) fun e => ∃ t, e.Starts t ∧ t.serial = serial := by
  refine (atMostOne_events (fun e => ∃ t, e.Starts t ∧ t.serial = serial)
    (fun y => serial < y.registry.nextSerial) ?_ ?_ ?_ sound ops).1
  · rintro y op good ⟨t, starts, rfl⟩
    obtain ⟨serial, next, _⟩ := starts_serial good starts
    omega
  · intro y op good issued
    exact Nat.lt_of_lt_of_le issued (nextSerial_le good op)
  · rintro y op good issued ⟨t, starts, rfl⟩
    obtain ⟨serial, _⟩ := starts_serial good starts
    omega

/-- What a caller that looks is told is left for it already, or its wait is due and its call is
taken out now. Either way the caller goes. -/
theorem tells_cases (sound : x.Sound) (tells : (x.event op).Tells t ending) :
    (∃ h hold, x.holds h = some hold ∧ hold.ticket = t ∧ op = .look h ∧ (x.step op).2.holds h = none) ∧
      ((t.serial, ending) ∈ x.registry.endings ∨ ending = .timedOut ∧ (x.event op).Ends t) := by
  obtain ⟨answer, h, hold, rfl, held, rfl⟩ := tells
  have held : x.holds h = some hold := held
  have answer : (x.step (.look h)).1 = .told ending := answer
  have change := step_change sound (.look h)
  have after : (x.event (.look h)).Ends hold.ticket ↔ _ := ends_iff sound
  rw [answer] at change
  generalize x.event (.look h) = e at after ⊢
  generalize (x.step (.look h)).2 = y at change after ⊢
  cases change with
  | nothing _ silent _ => exact absurd rfl (silent ending)
  | @finds _ ticket limit _ r' found left sheds =>
    obtain rfl := Option.some.inj (held.symm.trans found)
    exact ⟨⟨h, _, found, rfl, rfl, Function.update_self ..⟩, Or.inl left⟩
  | @elapses _ ticket limit r' found due pends sheds =>
    obtain rfl := Option.some.inj (held.symm.trans found)
    refine ⟨⟨h, _, found, rfl, rfl, Function.update_self ..⟩, Or.inr ⟨rfl, after.mpr ⟨pends, ?_⟩⟩⟩
    rintro ⟨p, pending, _⟩
    have stays := (sheds.mem_entries.mp pending).2
    simp at stays

theorem atMostOne_tells (sound : x.Sound) (ops : List Op) (t : Ticket) :
    AtMostOne (x.events ops) fun e => ∃ ending, e.Tells t ending := by
  refine (atMostOne_events (fun e => ∃ ending, e.Tells t ending) (fun y => t.serial < y.registry.nextSerial ∧
    ∀ h hold, y.holds h = some hold → hold.ticket.serial ≠ t.serial) ?_ ?_ ?_ sound ops).1
  · rintro y op good ⟨ending, tells⟩
    obtain ⟨⟨h, hold, held, rfl, _, gone⟩, _⟩ := tells_cases good tells
    have issued := good.issued h hold held
    refine ⟨Nat.lt_of_lt_of_le issued (nextSerial_le good op), ?_⟩
    intro k other after same
    rcases hold_of_step good op after with ⟨old, before, ticket⟩ | ⟨_, fresh⟩
    · rw [← ticket] at same
      obtain rfl := good.own k h old hold before held same
      rw [gone] at after
      cases after
    · omega
  · rintro y op good ⟨issued, gone⟩
    refine ⟨Nat.lt_of_lt_of_le issued (nextSerial_le good op), ?_⟩
    intro k other after same
    rcases hold_of_step good op after with ⟨old, before, ticket⟩ | ⟨_, fresh⟩
    · exact gone k old before (ticket ▸ same)
    · omega
  · rintro y op good ⟨_, gone⟩ ⟨ending, tells⟩
    obtain ⟨⟨h, hold, held, rfl, _, _⟩, _⟩ := tells_cases good tells
    exact gone h hold held rfl

/-! ### Where an ending comes from -/

/-- The entry with the serial of a ticket that is out is under the ticket's id. -/
theorem entry_of_hold (sound : x.Sound) {h : Handle} {hold : Hold} (held : x.holds h = some hold)
    {e : String × PendingCall} (member : e ∈ x.registry.entries) (same : e.2.serial = hold.ticket.serial) :
    e.1 = hold.ticket.id := by
  rcases sound.served h hold held with ⟨p, pending, serial⟩ | ⟨ending, left⟩
  · exact congrArg Prod.fst (sound.valid.eq_of_serial member pending (same.trans serial.symm))
  · exact absurd same (sound.valid.apart e member _ left)

theorem not_pends_of_left (sound : x.Sound) (left : (t.serial, ending) ∈ x.registry.endings) :
    ¬Pends x.registry t := by
  rintro ⟨p, pending, same⟩
  exact sound.valid.apart _ pending _ left same

theorem left_of_step (sound : x.Sound) (op : Op) {h : Handle} {hold : Hold} (held : x.holds h = some hold)
    (left : (hold.ticket.serial, ending) ∈ (x.step op).2.registry.endings) :
    (hold.ticket.serial, ending) ∈ x.registry.endings ∨
      (x.event op).Ends hold.ticket ∧ (x.event op).Brings hold.ticket ending := by
  have gone := not_pends_of_left (step_sound sound op) left
  have brings : ∀ e ∈ x.registry.entries, e.2.serial = hold.ticket.serial →
      (x.event op).Ends hold.ticket ∧ e.1 = hold.ticket.id := by
    intro e member same
    have id := entry_of_hold sound held member same
    exact ⟨(ends_iff sound).mpr ⟨⟨e.2, id ▸ member, same⟩, gone⟩, id⟩
  have event : x.event op = ⟨x, op, (x.step op).1, (x.step op).2⟩ := rfl
  have change := step_change sound op
  rw [event] at brings ⊢
  generalize (x.step op).1 = answer at change brings ⊢
  generalize (x.step op).2 = y at change left brings ⊢
  cases change with
  | registers _ _ enters => exact Or.inl (enters.endings ▸ left)
  | nothing _ _ sheds => exact Or.inl (sheds.left_before left)
  | passes => exact Or.inl left
  | waits => exact Or.inl left
  | finds _ _ sheds => exact Or.inl (sheds.left_before left)
  | elapses _ _ _ sheds => exact Or.inl (sheds.left_before left)
  | leaves _ _ sheds => exact Or.inl (sheds.left_before left)
  | forgets _ _ sheds => exact Or.inl (sheds.left_before left)
  | resolves pending sheds =>
    rcases sheds.mem_endings.mp left with new | ⟨old, _⟩
    · obtain ⟨same, rfl⟩ := Prod.mk.inj (List.mem_singleton.mp new)
      obtain ⟨ends, rfl⟩ := brings _ pending same.symm
      exact Or.inr ⟨ends, rfl, rfl⟩
    · exact Or.inl old
  | cancels pending sheds =>
    rcases sheds.mem_endings.mp left with new | ⟨old, _⟩
    · obtain ⟨same, rfl⟩ := Prod.mk.inj (List.mem_singleton.mp new)
      obtain ⟨ends, rfl⟩ := brings _ pending same.symm
      exact Or.inr ⟨ends, rfl, rfl⟩
    · exact Or.inl old
  | sweeps sheds =>
    rcases sheds.mem_endings.mp left with new | ⟨old, _⟩
    · obtain ⟨p, expired, same⟩ := List.mem_map.mp new
      obtain ⟨serial, rfl⟩ := Prod.mk.inj same
      rw [expired_eq] at expired
      obtain ⟨e, pending, rfl⟩ := List.mem_map.mp (List.mem_filter.mp expired).1
      obtain ⟨ends, _⟩ := brings e pending serial
      exact Or.inr ⟨ends, rfl⟩
    · exact Or.inl old

/-- Every ticket that is out was given out in the run, and the ending that is left for it was brought
by the operation that took its call out. -/
theorem left_explained (shards : Nat) (hash : String → UInt64) (ops : List Op) {h : Handle} {hold : Hold}
    (held : ((start shards hash).after ops).holds h = some hold) :
    (∃ c ∈ (start shards hash).events ops, c.Starts hold.ticket) ∧
      ∀ ending, (hold.ticket.serial, ending) ∈ ((start shards hash).after ops).registry.endings →
        ∃ c ∈ (start shards hash).events ops, c.Ends hold.ticket ∧ c.Brings hold.ticket ending := by
  induction ops using List.reverseRecOn generalizing h hold with
  | nil => cases held
  | append_singleton ops op ih =>
    have good := after_sound (start_sound shards hash) ops
    have last : ((start shards hash).after ops).events [op] = [((start shards hash).after ops).event op] := rfl
    rw [after_append] at held ⊢
    rw [events_append, last]
    have now := List.mem_append_right ((start shards hash).events ops)
      (List.mem_singleton_self (((start shards hash).after ops).event op))
    rcases hold_of_step good op held with ⟨old, before, same⟩ | ⟨starts, fresh⟩
    · obtain ⟨⟨c, member, starts⟩, explained⟩ := ih before
      rw [same] at starts explained
      refine ⟨⟨c, List.mem_append_left _ member, starts⟩, ?_⟩
      intro ending left
      rw [← same] at left
      rcases left_of_step good op before left with already | ⟨ends, brings⟩
      · rw [same] at already
        obtain ⟨c, member, brought⟩ := explained ending already
        exact ⟨c, List.mem_append_left _ member, brought⟩
      · rw [same] at ends brings
        exact ⟨_, now, ends, brings⟩
    · refine ⟨⟨_, now, starts⟩, ?_⟩
      intro ending left
      have pends := (starts_serial good starts).2.2
      exact absurd pends (not_pends_of_left (step_sound good op) left)

/-! ### One outcome -/

/-- What the events of a run say of the registration with a ticket. -/
structure OneOutcome (events : List Event) (t : Ticket) : Prop where
  issued : AtMostOne events fun e => ∃ u, e.Starts u ∧ u.serial = t.serial
  begins : ∀ e ∈ events, e.Starts t → e.after.registry.owns t = true
  ends : AtMostOne events (·.Ends t)
  told : AtMostOne events fun e => ∃ ending, e.Tells t ending
  registered : ∀ e ∈ events, ∀ ending, e.Tells t ending → ∃ c ∈ events, c.Starts t
  /-- A caller is told the ending that came with the operation that took its call out, or a timeout if
  that was its own look. -/
  outcome : ∀ e ∈ events, ∀ told, e.Tells t told → ∀ ending, told = ending ↔
    ∃ c ∈ events, c.Ends t ∧ (c.Brings t ending ∨ c = e ∧ ending = .timedOut)
  /-- A reply is for one registration. -/
  unshared : ∀ c ∈ events, ∀ id text, c.op = .resolve id text → ∀ u, c.Ends t → c.Ends u → u.serial = t.serial
  /-- A caller waits on as long as its call is pending and its time has not come, and no longer. -/
  waits : ∀ e ∈ events, ∀ h limit, e.op = .look h → e.before.holds h = some ⟨t, some limit⟩ →
    (e.answer = .waiting ↔ e.before.registry.owns t = true ∧ e.before.now < limit) ∧
      (e.answer = .waiting ∨ ∃ ending, e.Tells t ending)

theorem tells_cause {shards : Nat} {hash : String → UInt64} {e : Event}
    (member : e ∈ (start shards hash).events ops) (tells : e.Tells t ending) :
    (∃ c ∈ (start shards hash).events ops, c.Starts t) ∧
      ∃ c ∈ (start shards hash).events ops, c.Ends t ∧ (c.Brings t ending ∨ c = e ∧ ending = .timedOut) := by
  obtain ⟨past, op, rest, rfl, rfl⟩ := exists_of_mem_events member
  have good := after_sound (start_sound shards hash) past
  obtain ⟨⟨h, hold, held, rfl, _, _⟩, cause⟩ := tells_cases good tells
  obtain ⟨⟨s, before, starts⟩, explained⟩ := left_explained shards hash past held
  rw [events_append] at member ⊢
  refine ⟨⟨s, List.mem_append_left _ before, starts⟩, ?_⟩
  rcases cause with left | ⟨timedOut, ends⟩
  · obtain ⟨c, earlier, ends, brings⟩ := explained ending left
    exact ⟨c, List.mem_append_left _ earlier, ends, Or.inl brings⟩
  · exact ⟨_, member, ends, Or.inr ⟨rfl, timedOut⟩⟩

theorem look_waits (sound : x.Sound) {h : Handle} {limit : Nat} (held : x.holds h = some ⟨t, some limit⟩) :
    ((x.event (.look h)).answer = .waiting ↔ x.registry.owns t = true ∧ x.now < limit) ∧
      ((x.event (.look h)).answer = .waiting ∨ ∃ ending, (x.event (.look h)).Tells t ending) := by
  have answer : (x.event (.look h)).answer = (x.look h).1 := rfl
  have tells : ∀ ending, (x.look h).1 = .told ending → (x.event (.look h)).Tells t ending :=
    fun ending told => ⟨told, h, _, rfl, held, rfl⟩
  have served := sound.served h _ held
  rw [answer, pends_iff sound]
  rcases await_cases sound.valid t limit x.now with
    ⟨ending, left, told, _⟩ | ⟨absent, ⟨due, told, pends, _⟩ | ⟨due, told, gone⟩ | ⟨early, waits⟩⟩
  · have told : (x.look h).1 = .told ending := by
      rw [look, held]
      dsimp only
      rw [← Prod.eta (x.registry.await t limit x.now), told]
    refine ⟨⟨fun waiting => ?_, fun both => ?_⟩, Or.inr ⟨ending, tells ending told⟩⟩
    · rw [told] at waiting
      cases waiting
    · exact absurd both.1 (not_pends_of_left sound left)
  · have told : (x.look h).1 = .told .timedOut := by
      rw [look, held]
      dsimp only
      rw [← Prod.eta (x.registry.await t limit x.now), told]
    refine ⟨⟨fun waiting => ?_, fun both => ?_⟩, Or.inr ⟨_, tells _ told⟩⟩
    · rw [told] at waiting
      cases waiting
    · omega
  · rcases served with pends | ⟨ending, left⟩
    · exact absurd pends gone
    · exact absurd left (absent ending)
  · have waiting : (x.look h).1 = .waiting := by
      rw [look, held]
      dsimp only
      rw [waits]
    rcases served with pends | ⟨ending, left⟩
    · exact ⟨⟨fun _ => ⟨pends, early⟩, fun _ => waiting⟩, Or.inl waiting⟩
    · exact absurd left (absent ending)

theorem ends_unshared (sound : x.Sound) {id text : String} {u : Ticket}
    (first : (x.event (.resolve id text)).Ends t) (second : (x.event (.resolve id text)).Ends u) :
    u.serial = t.serial := by
  have taken : ∀ v, (x.event (.resolve id text)).Ends v → v.id = id := by
    intro v ends
    obtain ⟨⟨p, pending, same⟩, gone⟩ := (ends_iff sound).mp ends
    by_contra other
    apply gone
    refine ⟨p, ?_, same⟩
    rcases resolve_cases sound.valid.toShaped x.now id text with ⟨_, _, _, sheds⟩ | ⟨_, _, sheds⟩
    · exact sheds.mem_entries.mpr ⟨pending, bne_iff_ne.mpr other⟩
    · exact sheds.mem_entries.mpr ⟨pending, rfl⟩
  obtain ⟨⟨p, pending, same⟩, _⟩ := (ends_iff sound).mp first
  obtain ⟨⟨q, other, serial⟩, _⟩ := (ends_iff sound).mp second
  rw [taken t first] at pending
  rw [taken u second] at other
  have entry := congrArg (fun e => e.2.serial) (sound.valid.eq_of_id pending other rfl)
  exact serial.symm.trans (entry.symm.trans same)

theorem brings_unique {c : Event} {other : Ending} (first : c.Brings t ending) (second : c.Brings t other) :
    ending = other := by
  cases ending with
  | reply text =>
    cases other with
    | reply text' =>
      obtain ⟨_, rfl⟩ := Op.resolve.inj (first.1.symm.trans second.1)
      rfl
    | timedOut => cases first.1.symm.trans second
    | cancelled => cases first.1.symm.trans second.1
  | timedOut =>
    cases other with
    | reply text => cases second.1.symm.trans first
    | timedOut => rfl
    | cancelled => cases second.1.symm.trans first
  | cancelled =>
    cases other with
    | reply text => cases second.1.symm.trans first.1
    | timedOut => cases first.1.symm.trans second
    | cancelled => rfl

theorem not_brings_of_tells {e : Event} {other : Ending} (tells : e.Tells t other) : ¬e.Brings t ending := by
  obtain ⟨_, h, _, looks, _⟩ := tells
  intro brings
  cases ending with
  | reply text => cases looks.symm.trans brings.1
  | timedOut => cases looks.symm.trans brings
  | cancelled => cases looks.symm.trans brings.1

theorem told_iff {shards : Nat} {hash : String → UInt64} {e : Event} {told : Ending}
    (member : e ∈ (start shards hash).events ops) (tells : e.Tells t told) (ending : Ending) :
    told = ending ↔ ∃ c ∈ (start shards hash).events ops,
      c.Ends t ∧ (c.Brings t ending ∨ c = e ∧ ending = .timedOut) := by
  obtain ⟨_, c, found, gone, cause⟩ := tells_cause member tells
  constructor
  · rintro rfl
    exact ⟨c, found, gone, cause⟩
  · rintro ⟨d, other, again, how⟩
    obtain rfl := (atMostOne_ends (start_sound shards hash) ops t).eq found other gone again
    rcases cause with brings | ⟨rfl, timedOut⟩
    · rcases how with too | ⟨rfl, _⟩
      · exact brings_unique brings too
      · exact absurd brings (not_brings_of_tells tells)
    · rcases how with too | ⟨_, timedOut'⟩
      · exact absurd too (not_brings_of_tells tells)
      · exact timedOut.trans timedOut'.symm

theorem start_oneOutcome (shards : Nat) (hash : String → UInt64) (ops : List Op) (t : Ticket) :
    OneOutcome ((start shards hash).events ops) t := by
  have sound := start_sound shards hash
  refine ⟨atMostOne_starts sound ops t.serial, ?_, atMostOne_ends sound ops t, atMostOne_tells sound ops t,
    ?_, ?_, ?_, ?_⟩
  · intro e member starts
    obtain ⟨past, op, rest, rfl, rfl⟩ := exists_of_mem_events member
    have good := after_sound sound past
    exact (pends_iff (step_sound good op)).mpr (starts_serial good starts).2.2
  · intro e member ending tells
    exact (tells_cause member tells).1
  · intro e member told tells
    exact told_iff member tells
  · intro c member id text resolves u first second
    obtain ⟨past, op, rest, rfl, rfl⟩ := exists_of_mem_events member
    obtain rfl : op = .resolve id text := resolves
    exact ends_unshared (after_sound sound past) first second
  · intro e member h limit looks held
    obtain ⟨past, op, rest, rfl, rfl⟩ := exists_of_mem_events member
    obtain rfl : op = .look h := looks
    exact look_waits (after_sound sound past) held

theorem futile {id : String} (absent : x.registry.contains id = false)
    (op_eq : op = .cancel id ∨ ∃ text, op = .resolve id text) :
    (x.step op).1 = .flag false ∧ (x.step op).2.registry.shards = x.registry.shards ∧
      (x.step op).2.registry.endings = x.registry.endings ∧ (x.step op).2.holds = x.holds := by
  have missing : x.registry.find? id = none := Option.isNone_iff_eq_none.mp (Option.isSome_eq_false_iff.mp absent)
  rcases op_eq with rfl | ⟨text, rfl⟩
  · simp only [step, cancel, missing]
    exact ⟨rfl, rfl, rfl, rfl⟩
  · simp only [step, resolve, missing]
    exact ⟨rfl, rfl, rfl, rfl⟩

/-- In every run each registration has one outcome, and its caller is told that one. Resolving or
cancelling what is not pending comes to nothing. -/
theorem each_registration_has_one_outcome (shards : Nat) (hash : String → UInt64) (ops : List Op) :
    (∀ t, OneOutcome ((start shards hash).events ops) t) ∧
      ∀ e ∈ (start shards hash).events ops, ∀ id,
        (e.op = .cancel id ∨ ∃ text, e.op = .resolve id text) → e.before.registry.contains id = false →
          e.answer = .flag false ∧ e.after.registry.shards = e.before.registry.shards ∧
            e.after.registry.endings = e.before.registry.endings ∧ e.after.holds = e.before.holds := by
  refine ⟨start_oneOutcome shards hash ops, ?_⟩
  intro e member id ends absent
  obtain ⟨past, op, rest, rfl, rfl⟩ := exists_of_mem_events member
  exact futile absent ends

def again : CallId := ⟨"again", by decide, by decide⟩

/-- An id that is registered again before its first caller has looked. -/
def reuse : List Op :=
  [.register ⟨again, 1⟩ 9, .wait ⟨again, 1⟩ none, .resolve "again" "one",
    .register ⟨again, 2⟩ 9, .cancel "again"]

/-- The first caller is told the reply, although the call under its id has been cancelled since. -/
theorem each_registration_has_one_outcome_of_reuse :
    ∃ c ∈ (start 1 mix).events (reuse ++ [.look ⟨again, 1⟩]),
      c.Ends ⟨"again", 0, 9⟩ ∧ c.Brings ⟨"again", 0, 9⟩ (.reply "one") := by
  have tells : (((start 1 mix).after reuse).event (.look ⟨again, 1⟩)).Tells ⟨"again", 0, 9⟩ (.reply "one") :=
    ⟨by decide +kernel, _, ⟨⟨"again", 0, 9⟩, some 9⟩, rfl, by decide +kernel, rfl⟩
  have member : ((start 1 mix).after reuse).event (.look ⟨again, 1⟩) ∈
      (start 1 mix).events (reuse ++ [.look ⟨again, 1⟩]) := by
    rw [events_append]
    exact List.mem_append_right _ (List.mem_singleton_self _)
  obtain ⟨each, _⟩ := each_registration_has_one_outcome 1 mix (reuse ++ [.look ⟨again, 1⟩])
  obtain ⟨c, found, ends, brings | ⟨_, no⟩⟩ := ((each _).outcome _ member _ tells _).mp rfl
  · exact ⟨c, found, ends, brings⟩
  · cases no

end SoapRelay.Hall
