import SoapRelay.Proofs.Entries
import SoapRelay.Registry.Hall

/-!
# Runs of a hall

Whatever order the operations of a hall come in, every ticket that is out has its call pending or its
ending left for it. What an operation can do to a hall is said once, and the invariant follows from it.
-/

namespace SoapRelay.Hall

open Registry

variable {x y : Hall} {op : Op} {ops : List Op}

/-! ### Every ticket that is out -/

structure Sound (x : Hall) : Prop where
  valid : x.registry.Valid
  issued : ∀ h hold, x.holds h = some hold → hold.ticket.serial < x.registry.nextSerial
  own : ∀ h k a b, x.holds h = some a → x.holds k = some b → a.ticket.serial = b.ticket.serial → h = k
  named : ∀ h hold, x.holds h = some hold → hold.ticket.id = h.id.text
  served : ∀ h hold, x.holds h = some hold →
    (∃ p, (hold.ticket.id, p) ∈ x.registry.entries ∧ p.serial = hold.ticket.serial) ∨
      ∃ ending, (hold.ticket.serial, ending) ∈ x.registry.endings

theorem start_sound (shards : Nat) (hash : String → UInt64) : (start shards hash).Sound := by
  refine ⟨create_valid shards hash, ?_, ?_, ?_, ?_⟩
  · intro h hold held
    cases held
  · intro h k a b held
    cases held
  · intro h hold held
    cases held
  · intro h hold held
    cases held

/-! ### What an operation can do -/

/-- Whether a call is pending for a ticket. -/
def Pends (r : Registry) (t : Ticket) : Prop :=
  ∃ p, (t.id, p) ∈ r.entries ∧ p.serial = t.serial

/-- All that an operation can do. -/
inductive Change (x : Hall) : Op → Answer → Hall → Prop where
  | registers {h deadline ticket r'} (free : x.holds h = none)
      (issued : ticket = ⟨h.id.text, x.registry.nextSerial, deadline⟩)
      (enters : x.registry.Enters r' (ticket.id, ⟨ticket.serial, x.now, deadline⟩)) :
      Change x (.register h deadline) (.registered ticket)
        ((x.withRegistry r').withHold h (some ⟨ticket, none⟩))
  | nothing {op answer r'} (quiet : ∀ t, answer ≠ .registered t) (silent : ∀ ending, answer ≠ .told ending)
      (sheds : x.registry.Sheds r' every [] every) : Change x op answer (x.withRegistry r')
  | passes {time} : Change x (.pass time) .none { x with now := x.now + time }
  | waits {h until? ticket limit} (held : x.holds h = some ⟨ticket, none⟩) :
      Change x (.wait h until?) .waiting (x.withHold h (some ⟨ticket, some limit⟩))
  | finds {h ticket limit ending r'} (held : x.holds h = some ⟨ticket, some limit⟩)
      (left : (ticket.serial, ending) ∈ x.registry.endings)
      (sheds : x.registry.Sheds r' every [] (·.1 != ticket.serial)) :
      Change x (.look h) (.told ending) ((x.withRegistry r').withHold h none)
  | elapses {h ticket limit r'} (held : x.holds h = some ⟨ticket, some limit⟩) (due : limit ≤ x.now)
      (pends : Pends x.registry ticket) (sheds : x.registry.Sheds r' (·.1 != ticket.id) [] every) :
      Change x (.look h) (.told .timedOut) ((x.withRegistry r').withHold h none)
  | leaves {h hold r'} (held : x.holds h = some hold) (pends : Pends x.registry hold.ticket)
      (sheds : x.registry.Sheds r' (·.1 != hold.ticket.id) [] every) :
      Change x (.drop h) .none ((x.withRegistry r').withHold h none)
  | forgets {h hold r'} (held : x.holds h = some hold) (gone : ¬Pends x.registry hold.ticket)
      (sheds : x.registry.Sheds r' every [] (·.1 != hold.ticket.serial)) :
      Change x (.drop h) .none ((x.withRegistry r').withHold h none)
  | resolves {id reply p r'} (pending : (id, p) ∈ x.registry.entries)
      (sheds : x.registry.Sheds r' (·.1 != id) [(p.serial, .reply reply)] every) :
      Change x (.resolve id reply) (.flag true) (x.withRegistry r')
  | cancels {id p r'} (pending : (id, p) ∈ x.registry.entries)
      (sheds : x.registry.Sheds r' (·.1 != id) [(p.serial, .cancelled)] every) :
      Change x (.cancel id) (.flag true) (x.withRegistry r')
  | sweeps {n r'}
      (sheds : x.registry.Sheds r' (early x.now)
        ((x.registry.expired x.now).map fun p => (p.serial, .timedOut)) every) :
      Change x .sweep (.count n) (x.withRegistry r')

theorem unchanged {answer : Answer} (quiet : ∀ t, answer ≠ .registered t)
    (silent : ∀ ending, answer ≠ .told ending) : Change x op answer x :=
  .nothing quiet silent (.nothing rfl rfl (Nat.le_refl _) rfl)

theorem register_change (sound : x.Sound) (h : Handle) (deadline : Nat) :
    Change x (.register h deadline) (x.register h deadline).1 (x.register h deadline).2 := by
  unfold register
  cases free : x.holds h with
  | some hold => exact unchanged nofun nofun
  | none =>
    rcases register_cases sound.valid.toShaped x.now h.id deadline with
      ⟨_, _, refused, sheds⟩ | ⟨_, accepted, enters⟩
    · rw [← Prod.eta (x.registry.register x.now h.id deadline), refused]
      exact .nothing nofun nofun sheds
    · rw [← Prod.eta (x.registry.register x.now h.id deadline), accepted]
      exact .registers free rfl enters

theorem wait_change (x : Hall) (h : Handle) (until? : Option Nat) :
    Change x (.wait h until?) (x.wait h until?).1 (x.wait h until?).2 := by
  unfold wait
  split
  · rename_i held
    exact .waits held
  · exact unchanged nofun nofun

theorem look_change (sound : x.Sound) (h : Handle) : Change x (.look h) (x.look h).1 (x.look h).2 := by
  unfold look
  split
  · rename_i ticket limit held
    rcases await_cases sound.valid ticket limit x.now with
      ⟨ending, left, told, sheds⟩ | ⟨absent, ⟨due, told, pends, sheds⟩ | ⟨_, _, gone⟩ | ⟨_, waits⟩⟩
    · rw [← Prod.eta (x.registry.await ticket limit x.now), told]
      exact .finds held left sheds
    · rw [← Prod.eta (x.registry.await ticket limit x.now), told]
      exact .elapses held due pends sheds
    · rcases sound.served h _ held with pends | ⟨ending, left⟩
      · exact absurd pends gone
      · exact absurd left (absent ending)
    · rw [waits]
      exact unchanged nofun nofun
  · exact unchanged nofun nofun

theorem drop_change (sound : x.Sound) (h : Handle) : Change x (.drop h) (x.drop h).1 (x.drop h).2 := by
  unfold drop
  split
  · rename_i hold held
    rcases release_cases sound.valid hold.ticket with ⟨p, pending, same, sheds⟩ | ⟨gone, sheds⟩
    · exact .leaves held ⟨p, pending, same⟩ sheds
    · exact .forgets held gone sheds
  · exact unchanged nofun nofun

theorem step_change (sound : x.Sound) (op : Op) : Change x op (x.step op).1 (x.step op).2 := by
  have shaped := sound.valid.toShaped
  cases op with
  | register h deadline => exact register_change sound h deadline
  | wait h until? => exact wait_change x h until?
  | look h => exact look_change sound h
  | drop h => exact drop_change sound h
  | resolve id reply =>
    rcases resolve_cases shaped x.now id reply with ⟨p, pending, yes, sheds⟩ | ⟨_, no, sheds⟩
    · have answer : (x.step (.resolve id reply)).1 = .flag true := congrArg Answer.flag yes
      rw [answer]
      exact .resolves pending sheds
    · exact .nothing nofun nofun sheds
  | cancel id =>
    rcases cancel_cases shaped id with ⟨p, pending, yes, sheds⟩ | ⟨_, no, same⟩
    · have answer : (x.step (.cancel id)).1 = .flag true := congrArg Answer.flag yes
      rw [answer]
      exact .cancels pending sheds
    · have after : (x.step (.cancel id)).2 = x := congrArg x.withRegistry same
      rw [after]
      exact unchanged nofun nofun
  | sweep => exact .sweeps (sweep_sheds sound.valid x.now)
  | pass time => exact .passes

/-! ### The invariant -/

theorem holds_withHold {h k : Handle} {hold? : Option Hold} {hold : Hold}
    (held : (x.withHold h hold?).holds k = some hold) :
    (k = h ∧ hold? = some hold) ∨ (k ≠ h ∧ x.holds k = some hold) := by
  have held : Function.update x.holds h hold? k = some hold := held
  by_cases same : k = h
  · subst same
    rw [Function.update_self] at held
    exact Or.inl ⟨rfl, held⟩
  · rw [Function.update_of_ne same] at held
    exact Or.inr ⟨same, held⟩

/-- Callers go away or stay, and every caller that stays keeps its call or gets its ending. -/
structure Recedes (x y : Hall) (stays : String × PendingCall → Bool) (new : List (Nat × Ending))
    (kept : Nat × Ending → Bool) : Prop where
  sheds : x.registry.Sheds y.registry stays new kept
  held : ∀ h hold, y.holds h = some hold → ∃ old, x.holds h = some old ∧ old.ticket = hold.ticket
  ends : ∀ e ∈ x.registry.entries, stays e = false →
    (∃ ending, (e.2.serial, ending) ∈ new) ∨ ∀ h hold, y.holds h = some hold → hold.ticket.serial ≠ e.2.serial
  keeps : ∀ f ∈ x.registry.endings, kept f = false →
    ∀ h hold, y.holds h = some hold → hold.ticket.serial ≠ f.1

theorem Recedes.sound {stays : String × PendingCall → Bool} {new : List (Nat × Ending)}
    {kept : Nat × Ending → Bool} (recedes : Recedes x y stays new kept) (sound : x.Sound) : y.Sound := by
  refine ⟨recedes.sheds.valid sound.valid, ?_, ?_, ?_, ?_⟩
  · intro h hold held
    obtain ⟨old, before, same⟩ := recedes.held h hold held
    have issued := sound.issued h old before
    have later := recedes.sheds.serial
    rw [← same]
    omega
  · intro h k a b first second same
    obtain ⟨a', firstBefore, firstSame⟩ := recedes.held h a first
    obtain ⟨b', secondBefore, secondSame⟩ := recedes.held k b second
    rw [← firstSame, ← secondSame] at same
    exact sound.own h k a' b' firstBefore secondBefore same
  · intro h hold held
    obtain ⟨old, before, same⟩ := recedes.held h hold held
    exact same ▸ sound.named h old before
  · intro h hold held
    obtain ⟨old, before, same⟩ := recedes.held h hold held
    rcases sound.served h old before with ⟨p, pending, serial⟩ | ⟨ending, left⟩
    · rw [same] at pending serial
      cases stay : stays (hold.ticket.id, p) with
      | true => exact Or.inl ⟨p, recedes.sheds.mem_entries.mpr ⟨pending, stay⟩, serial⟩
      | false =>
        rcases recedes.ends _ pending stay with ⟨ending, added⟩ | gone
        · rw [serial] at added
          exact Or.inr ⟨ending, recedes.sheds.mem_endings.mpr (Or.inl added)⟩
        · exact absurd serial.symm (gone h hold held)
    · rw [same] at left
      cases keep : kept (hold.ticket.serial, ending) with
      | true => exact Or.inr ⟨ending, recedes.sheds.mem_endings.mpr (Or.inr ⟨left, keep⟩)⟩
      | false => exact absurd rfl (recedes.keeps _ left keep h hold held)

theorem registers_sound (sound : x.Sound) {h : Handle} {deadline : Nat} {ticket : Ticket} {r' : Registry}
    (issued : ticket = ⟨h.id.text, x.registry.nextSerial, deadline⟩)
    (enters : x.registry.Enters r' (ticket.id, ⟨ticket.serial, x.now, deadline⟩)) :
    ((x.withRegistry r').withHold h (some ⟨ticket, none⟩)).Sound := by
  have serial : ticket.serial = x.registry.nextSerial := by rw [issued]
  refine ⟨enters.valid sound.valid, ?_, ?_, ?_, ?_⟩
  · intro k hold held
    have next : r'.nextSerial = x.registry.nextSerial + 1 := enters.serial
    show hold.ticket.serial < r'.nextSerial
    rcases holds_withHold held with ⟨_, same⟩ | ⟨_, before⟩
    · obtain rfl := Option.some.inj same
      show ticket.serial < r'.nextSerial
      omega
    · have old := sound.issued k hold before
      omega
  · intro k l a b first second same
    rcases holds_withHold first with ⟨rfl, a'⟩ | ⟨_, firstBefore⟩
    · obtain rfl := Option.some.inj a'
      rcases holds_withHold second with ⟨rfl, _⟩ | ⟨_, secondBefore⟩
      · rfl
      · have old := sound.issued l b secondBefore
        have same : ticket.serial = b.ticket.serial := same
        omega
    · rcases holds_withHold second with ⟨rfl, b'⟩ | ⟨_, secondBefore⟩
      · obtain rfl := Option.some.inj b'
        have old := sound.issued k a firstBefore
        have same : a.ticket.serial = ticket.serial := same
        omega
      · exact sound.own k l a b firstBefore secondBefore same
  · intro k hold held
    rcases holds_withHold held with ⟨rfl, same⟩ | ⟨_, before⟩
    · obtain rfl := Option.some.inj same
      show ticket.id = _
      rw [issued]
    · exact sound.named k hold before
  · intro k hold held
    rcases holds_withHold held with ⟨rfl, same⟩ | ⟨_, before⟩
    · obtain rfl := Option.some.inj same
      exact Or.inl ⟨_, enters.mem_entries.mpr (Or.inl rfl), rfl⟩
    · rcases sound.served k hold before with ⟨p, pending, serial⟩ | ⟨ending, left⟩
      · exact Or.inl ⟨p, enters.mem_entries.mpr (Or.inr pending), serial⟩
      · have left' : (hold.ticket.serial, ending) ∈ r'.endings := enters.endings ▸ left
        exact Or.inr ⟨ending, left'⟩

section

variable {r' : Registry} {stays : String × PendingCall → Bool} {new : List (Nat × Ending)}
  {kept : Nat × Ending → Bool}

/-- A caller goes away, with its call or its ending if anything. -/
theorem departs (sound : x.Sound) {h : Handle} {hold : Hold} (held : x.holds h = some hold)
    (sheds : x.registry.Sheds r' stays [] kept)
    (gone : ∀ e ∈ x.registry.entries, stays e = false → e.2.serial = hold.ticket.serial)
    (taken : ∀ f, kept f = false → f.1 = hold.ticket.serial) :
    Recedes x ((x.withRegistry r').withHold h none) stays [] kept := by
  have others : ∀ k other, ((x.withRegistry r').withHold h none).holds k = some other →
      x.holds k = some other ∧ other.ticket.serial ≠ hold.ticket.serial := by
    intro k other after
    rcases holds_withHold after with ⟨_, no⟩ | ⟨different, before⟩
    · cases no
    · exact ⟨before, fun same => different (sound.own k h other hold before held same)⟩
  refine ⟨sheds, ?_, ?_, ?_⟩
  · intro k other after
    exact ⟨other, (others k other after).1, rfl⟩
  · intro e pending left
    refine Or.inr fun k other after => ?_
    rw [gone e pending left]
    exact (others k other after).2
  · intro f _ took k other after
    rw [taken f took]
    exact (others k other after).2

/-- Nobody goes away, and every call that leaves gets an ending. -/
theorem remains (same : y.holds = x.holds) (sheds : x.registry.Sheds y.registry stays new every)
    (ended : ∀ e ∈ x.registry.entries, stays e = false → ∃ ending, (e.2.serial, ending) ∈ new) :
    Recedes x y stays new every := by
  refine ⟨sheds, ?_, ?_, ?_⟩
  · intro h hold held
    rw [same] at held
    exact ⟨hold, held, rfl⟩
  · intro e pending left
    exact Or.inl (ended e pending left)
  · intro f _ took
    cases took

end

theorem eq_of_ne_false {r : Registry} {id : String} {p : PendingCall} (shaped : r.Shaped)
    (pending : (id, p) ∈ r.entries) {e : String × PendingCall} (member : e ∈ r.entries)
    (left : (e.1 != id) = false) : e = (id, p) :=
  shaped.eq_of_id member pending (by simpa using left)

/-- Apart from registering, no operation adds a call or a caller. -/
theorem Change.cases (sound : x.Sound) {answer : Answer} (change : Change x op answer y) :
    (∃ stays new kept, Recedes x y stays new kept ∧ ∀ t, answer ≠ .registered t) ∨
      ∃ h deadline ticket r', answer = .registered ticket ∧
        ticket = ⟨h.id.text, x.registry.nextSerial, deadline⟩ ∧
        x.registry.Enters r' (ticket.id, ⟨ticket.serial, x.now, deadline⟩) ∧
        y = (x.withRegistry r').withHold h (some ⟨ticket, none⟩) := by
  have shaped := sound.valid.toShaped
  cases change with
  | @registers h deadline ticket r' free issued enters =>
    exact Or.inr ⟨h, deadline, ticket, r', rfl, issued, enters, rfl⟩
  | nothing quiet silent sheds =>
    exact Or.inl ⟨_, _, _, remains rfl sheds nofun, quiet⟩
  | passes =>
    refine Or.inl ⟨_, _, _, remains rfl (.nothing rfl rfl (Nat.le_refl _) rfl) nofun, nofun⟩
  | @waits h until? ticket limit held =>
    refine Or.inl ⟨every, [], every, ⟨.nothing rfl rfl (Nat.le_refl _) rfl, ?_, nofun, nofun⟩, nofun⟩
    intro k hold after
    rcases holds_withHold after with ⟨rfl, same⟩ | ⟨_, before⟩
    · obtain rfl := Option.some.inj same
      exact ⟨_, held, rfl⟩
    · exact ⟨hold, before, rfl⟩
  | finds held left sheds =>
    exact Or.inl ⟨_, _, _, departs sound held sheds nofun (fun f took => by simpa using took), nofun⟩
  | elapses held due pends sheds =>
    obtain ⟨p, pending, same⟩ := pends
    refine Or.inl ⟨_, _, _, departs sound held sheds ?_ nofun, nofun⟩
    intro e member left
    rw [eq_of_ne_false shaped pending member left]
    exact same
  | leaves held pends sheds =>
    obtain ⟨p, pending, same⟩ := pends
    refine Or.inl ⟨_, _, _, departs sound held sheds ?_ nofun, nofun⟩
    intro e member left
    rw [eq_of_ne_false shaped pending member left]
    exact same
  | forgets held _ sheds =>
    exact Or.inl ⟨_, _, _, departs sound held sheds nofun (fun f took => by simpa using took), nofun⟩
  | resolves pending sheds =>
    refine Or.inl ⟨_, _, _, remains rfl sheds ?_, nofun⟩
    intro e member left
    rw [eq_of_ne_false shaped pending member left]
    exact ⟨_, List.mem_singleton_self _⟩
  | cancels pending sheds =>
    refine Or.inl ⟨_, _, _, remains rfl sheds ?_, nofun⟩
    intro e member left
    rw [eq_of_ne_false shaped pending member left]
    exact ⟨_, List.mem_singleton_self _⟩
  | sweeps sheds =>
    refine Or.inl ⟨_, _, _, remains rfl sheds ?_, nofun⟩
    intro e member left
    refine ⟨.timedOut, List.mem_map.mpr ⟨e.2, ?_, rfl⟩⟩
    rw [expired_eq]
    exact List.mem_filter.mpr ⟨List.mem_map_of_mem member, by simpa [early] using left⟩

theorem step_sound (sound : x.Sound) (op : Op) : (x.step op).2.Sound := by
  rcases (step_change sound op).cases sound with ⟨_, _, _, recedes, _⟩ | ⟨_, _, _, _, _, issued, enters, after⟩
  · exact recedes.sound sound
  · rw [after]
    exact registers_sound sound issued enters

/-! ### Runs -/

theorem after_append (x : Hall) (first second : List Op) :
    x.after (first ++ second) = (x.after first).after second :=
  List.foldl_append

theorem events_append (x : Hall) (first second : List Op) :
    x.events (first ++ second) = x.events first ++ (x.after first).events second := by
  induction first generalizing x with
  | nil => rfl
  | cons op ops ih =>
    rw [List.cons_append, events, events, ih, List.cons_append]
    rfl

theorem after_sound (sound : x.Sound) (ops : List Op) : (x.after ops).Sound := by
  induction ops generalizing x with
  | nil => exact sound
  | cons op ops ih => exact ih (step_sound sound op)

/-- An event of a run comes after the operations before it. -/
theorem exists_of_mem_events {e : Event} (h : e ∈ x.events ops) :
    ∃ past op rest, ops = past ++ op :: rest ∧ e = (x.after past).event op := by
  induction ops generalizing x with
  | nil => cases h
  | cons op ops ih =>
    rcases List.mem_cons.mp h with rfl | later
    · exact ⟨[], op, ops, rfl, rfl⟩
    · obtain ⟨past, next, rest, rfl, found⟩ := ih later
      exact ⟨op :: past, next, rest, rfl, found⟩

end SoapRelay.Hall
