import SoapRelay.Proofs.Outcome
import SoapRelay.Proofs.Slot

/-!
# Calls and callers correspond

In every run each pending call has its caller, and each caller has its pending call or its ending. An
ending is therefore always sent to somebody who is there, and nobody looks at a slot into which
nothing can be sent any more.
-/

namespace SoapRelay.Hall

open Registry

variable {x y : Hall} {op : Op} {h : Handle} {hold : Hold} {ending : Ending}

/-! ### A caller stays, or it goes with its call and its ending -/

/-- A caller with a ticket. -/
def Holds (x : Hall) (h : Handle) (t : Ticket) : Prop :=
  ∃ hold, x.holds h = some hold ∧ hold.ticket = t

/-- Nothing in a registry is for a ticket. -/
def Bare (r : Registry) (t : Ticket) : Prop :=
  ¬Pends r t ∧ ∀ ending, (t.serial, ending) ∉ r.endings

theorem Holds.withHold {t : Ticket} {k : Handle} {hold? : Option Hold} (holds : x.Holds h t) (other : h ≠ k) :
    (x.withHold k hold?).Holds h t := by
  obtain ⟨hold, held, same⟩ := holds
  exact ⟨hold, (Function.update_of_ne other _ _).trans held, same⟩

/-- A caller that looks and finds its ending takes it along. -/
theorem bare_of_taken {r r' : Registry} {t : Ticket} (sheds : r.Sheds r' every [] (·.1 != t.serial))
    (gone : ¬Pends r t) : Bare r' t := by
  refine ⟨?_, ?_⟩
  · rintro ⟨p, pending, same⟩
    exact gone ⟨p, (sheds.mem_entries.mp pending).1, same⟩
  · intro ending left
    rcases sheds.mem_endings.mp left with new | ⟨_, kept⟩
    · cases new
    · simp at kept

/-- A caller that is not served takes its call along. -/
theorem bare_of_removed {r r' : Registry} {t : Ticket} (valid : r.Valid)
    (sheds : r.Sheds r' (·.1 != t.id) [] every) (pends : Pends r t) : Bare r' t := by
  obtain ⟨p, pending, same⟩ := pends
  refine ⟨?_, ?_⟩
  · rintro ⟨q, stays, _⟩
    have other := (sheds.mem_entries.mp stays).2
    simp at other
  · intro ending left
    exact valid.apart _ pending _ (sheds.left_before left) same

theorem Change.stays_or_goes (sound : x.Sound) {answer : Answer} (change : Change x op answer y) {t : Ticket}
    (holds : x.Holds h t) : y.Holds h t ∨ (op = .look h ∨ op = .drop h) ∧ Bare y.registry t := by
  obtain ⟨hold, held, rfl⟩ := holds
  have there : x.Holds h hold.ticket := ⟨hold, held, rfl⟩
  -- The caller of a ticket that is given back is this one, or this one is not touched.
  have leaves : ∀ {k : Handle} {other : Hold} {r' : Registry}, x.holds k = some other →
      Bare r' other.ticket → (op = .look k ∨ op = .drop k) →
      ((x.withRegistry r').withHold k none).Holds h hold.ticket ∨
        (op = .look h ∨ op = .drop h) ∧ Bare r' hold.ticket := by
    intro k other r' taken bare goes
    by_cases same : h = k
    · subst same
      obtain rfl := Option.some.inj (held.symm.trans taken)
      exact Or.inr ⟨goes, bare⟩
    · exact Or.inl (Holds.withHold (x := x.withRegistry r') there same)
  cases change with
  | @registers k _ _ r' free _ _ =>
    refine Or.inl (Holds.withHold (x := x.withRegistry r') there ?_)
    rintro rfl
    cases free.symm.trans held
  | nothing => exact Or.inl there
  | passes => exact Or.inl there
  | @waits k _ ticket limit taken =>
    by_cases same : h = k
    · subst same
      obtain rfl := Option.some.inj (held.symm.trans taken)
      exact Or.inl ⟨⟨ticket, some limit⟩, Function.update_self .., rfl⟩
    · exact Or.inl (there.withHold same)
  | finds taken left sheds => exact leaves taken (bare_of_taken sheds (not_pends_of_left sound left)) (Or.inl rfl)
  | elapses taken _ pends sheds => exact leaves taken (bare_of_removed sound.valid sheds pends) (Or.inl rfl)
  | leaves taken pends sheds => exact leaves taken (bare_of_removed sound.valid sheds pends) (Or.inr rfl)
  | forgets taken gone sheds => exact leaves taken (bare_of_taken sheds gone) (Or.inr rfl)
  | resolves => exact Or.inl there
  | cancels => exact Or.inl there
  | sweeps => exact Or.inl there

/-! ### The invariant -/

/-- There is a caller for all that is in the registry. -/
structure Paired (x : Hall) : Prop where
  called : ∀ e ∈ x.registry.entries, ∃ h, x.Holds h ⟨e.1, e.2.serial, e.2.deadline⟩
  awaited : ∀ f ∈ x.registry.endings, ∃ h t, x.Holds h t ∧ t.serial = f.1

theorem start_paired (shards : Nat) (hash : String → UInt64) : (start shards hash).Paired := by
  refine ⟨?_, nofun⟩
  intro e pending
  have none : e ∈ (Registry.create shards hash).entries := pending
  rw [entries_create] at none
  cases none

theorem Paired.still_called (paired : x.Paired) (sound : x.Sound) (op : Op) {e : String × PendingCall}
    (before : e ∈ x.registry.entries) (after : e ∈ (x.step op).2.registry.entries) :
    ∃ h, (x.step op).2.Holds h ⟨e.1, e.2.serial, e.2.deadline⟩ := by
  obtain ⟨h, holds⟩ := paired.called e before
  rcases (step_change sound op).stays_or_goes sound holds with stays | ⟨_, gone, _⟩
  · exact ⟨h, stays⟩
  · exact absurd ⟨e.2, after, rfl⟩ gone

theorem still_awaited (sound : x.Sound) (op : Op) {t : Ticket} (holds : x.Holds h t)
    (left : (t.serial, ending) ∈ (x.step op).2.registry.endings) : (x.step op).2.Holds h t := by
  rcases (step_change sound op).stays_or_goes sound holds with stays | ⟨_, _, gone⟩
  · exact stays
  · exact absurd left (gone ending)

/-- An operation leaves endings for calls that were pending only. -/
theorem pending_of_new (sound : x.Sound) (op : Op) {f : Nat × Ending}
    (after : f ∈ (x.step op).2.registry.endings) (new : f ∉ x.registry.endings) :
    ∃ e ∈ x.registry.entries, e.2.serial = f.1 := by
  rcases (step_change sound op).cases sound with ⟨_, _, _, recedes, _⟩ | ⟨_, _, _, _, _, _, enters, same⟩
  · rcases recedes.sheds.mem_endings.mp after with sent | ⟨old, _⟩
    · obtain ⟨e, pending, _, serial⟩ := recedes.sheds.ended f sent
      exact ⟨e, pending, serial⟩
    · exact absurd old new
  · rw [same] at after
    exact absurd (enters.endings ▸ after) new

theorem step_paired (sound : x.Sound) (paired : x.Paired) (op : Op) : (x.step op).2.Paired := by
  -- What was there has its caller still, since a caller goes only with its call and its ending; what is
  -- new is a call of the caller that registers it, or the ending of a call that had its caller.
  constructor
  · intro e after
    by_cases before : e ∈ x.registry.entries
    · exact paired.still_called sound op before after
    · rcases (step_change sound op).cases sound with ⟨_, _, _, recedes, _⟩ | ⟨k, _, _, r', _, issued, enters, same⟩
      · exact absurd (recedes.sheds.mem_entries.mp after).1 before
      · rw [same] at after ⊢
        obtain rfl := (enters.mem_entries.mp after).resolve_right before
        refine ⟨k, _, Function.update_self .., ?_⟩
        rw [issued]
  · intro f after
    by_cases before : f ∈ x.registry.endings
    · obtain ⟨h, t, holds, serial⟩ := paired.awaited f before
      have left : (t.serial, f.2) ∈ (x.step op).2.registry.endings := serial ▸ after
      exact ⟨h, t, still_awaited sound op holds left, serial⟩
    · obtain ⟨e, pending, serial⟩ := pending_of_new sound op after before
      obtain ⟨h, holds⟩ := paired.called e pending
      have left : (e.2.serial, f.2) ∈ (x.step op).2.registry.endings := serial ▸ after
      exact ⟨h, _, still_awaited sound op holds left, serial⟩

theorem after_paired (sound : x.Sound) (paired : x.Paired) (ops : List Op) : (x.after ops).Paired := by
  induction ops generalizing x with
  | nil => exact paired
  | cons op ops ih => exact ih (step_sound sound op) (step_paired sound paired op)

/-! ### What follows for callers and their slots -/

/-- Pending calls and callers, one to one. -/
structure Corresponds (x : Hall) : Prop where
  /-- A pending call has one caller, with its id, serial and deadline, and its ending can be sent there. -/
  called : ∀ e ∈ x.registry.entries, ∃! h, ∃ t, x.Holds h t ∧ t = ⟨e.1, e.2.serial, e.2.deadline⟩ ∧
    x.registry.slot t = .empty
  /-- A caller has its pending call, or else its ending. -/
  served : ∀ h t, x.Holds h t →
    (∃ e ∈ x.registry.entries, t = ⟨e.1, e.2.serial, e.2.deadline⟩ ∧ x.registry.slot t = .empty) ∨
      ∃ ending, x.registry.slot t = .filled ending
  distinct : ∀ h k t u, x.Holds h t → x.Holds k u → t.serial = u.serial → h = k
  /-- An ending that was sent is in the slot of a caller. -/
  awaited : ∀ f ∈ x.registry.endings, ∃ h t, x.Holds h t ∧ t.serial = f.1 ∧ x.registry.slot t = .filled f.2

theorem Sound.distinct (sound : x.Sound) {h k : Handle} {t u : Ticket} (first : x.Holds h t) (second : x.Holds k u)
    (same : t.serial = u.serial) : h = k := by
  obtain ⟨a, held, rfl⟩ := first
  obtain ⟨b, other, rfl⟩ := second
  exact sound.own h k a b held other same

theorem Holds.unique {t u : Ticket} (first : x.Holds h t) (second : x.Holds h u) : t = u := by
  obtain ⟨a, held, rfl⟩ := first
  obtain ⟨b, other, rfl⟩ := second
  rw [Option.some.inj (held.symm.trans other)]

theorem Paired.ticket_eq (paired : x.Paired) (sound : x.Sound) {t : Ticket} (holds : x.Holds h t) {p : PendingCall}
    (pending : (t.id, p) ∈ x.registry.entries) (same : p.serial = t.serial) : t = ⟨t.id, p.serial, p.deadline⟩ := by
  obtain ⟨k, called⟩ := paired.called _ pending
  obtain rfl := sound.distinct called holds same
  exact holds.unique called

theorem Paired.corresponds (paired : x.Paired) (sound : x.Sound) : x.Corresponds := by
  have valid := sound.valid
  refine ⟨?_, ?_, fun h k t u => sound.distinct, ?_⟩
  · intro e pending
    obtain ⟨h, holds⟩ := paired.called e pending
    have empty := (slot_eq_empty_iff (t := ⟨e.1, e.2.serial, e.2.deadline⟩) valid).mpr ⟨e.2, pending, rfl⟩
    refine ⟨h, ⟨_, holds, rfl, empty⟩, ?_⟩
    rintro k ⟨t, other, rfl, _⟩
    exact sound.distinct other holds rfl
  · intro h t holds
    have there := holds
    obtain ⟨hold, held, rfl⟩ := holds
    rcases sound.served h hold held with ⟨p, pending, same⟩ | ⟨ending, left⟩
    · have empty := (slot_eq_empty_iff valid).mpr ⟨p, pending, same⟩
      exact Or.inl ⟨_, pending, paired.ticket_eq sound there pending same, empty⟩
    · exact Or.inr ⟨ending, (slot_eq_filled_iff valid).mpr left⟩
  · intro f left
    obtain ⟨h, t, holds, serial⟩ := paired.awaited f left
    have left : (t.serial, f.2) ∈ x.registry.endings := serial ▸ left
    exact ⟨h, t, holds, serial, (slot_eq_filled_iff valid).mpr left⟩

/-- An ending is sent to a caller that is there and has none, and it arrives. -/
theorem Paired.send_arrives (paired : x.Paired) (sound : x.Sound) (op : Op) {f : Nat × Ending}
    (after : f ∈ (x.step op).2.registry.endings) (new : f ∉ x.registry.endings) :
    ∃ h t, x.Holds h t ∧ t.serial = f.1 ∧ x.registry.slot t = .empty ∧
      (x.step op).2.Holds h t ∧ (x.step op).2.registry.slot t = .filled f.2 := by
  obtain ⟨e, pending, serial⟩ := pending_of_new sound op after new
  obtain ⟨h, holds⟩ := paired.called e pending
  have left : (e.2.serial, f.2) ∈ (x.step op).2.registry.endings := serial ▸ after
  refine ⟨h, _, holds, serial, ?_, still_awaited sound op holds left, ?_⟩
  · exact (slot_eq_empty_iff sound.valid).mpr ⟨e.2, pending, rfl⟩
  · exact (slot_eq_filled_iff (step_sound sound op).valid).mpr left

/-! ### An ending stays until its caller goes -/

/-- A caller goes away by itself, or it looks and is told how its call ended. -/
def Event.Dismisses (e : Event) (h : Handle) (t : Ticket) (ending : Ending) : Prop :=
  e.op = .drop h ∨ e.op = .look h ∧ e.Tells t ending

theorem look_told {t : Ticket} {limit : Nat} (held : x.holds h = some ⟨t, some limit⟩)
    (told : (x.registry.slot t).told? (decide (limit ≤ x.now)) = some ending) : (x.look h).1 = .told ending := by
  rw [← await_fst] at told
  rw [look, held]
  dsimp only
  rw [← Prod.eta (x.registry.await t limit x.now), told]

theorem told_of_look {t : Ticket} {limit : Nat} (held : x.holds h = some ⟨t, some limit⟩)
    (told : (x.look h).1 = .told ending) :
    (x.registry.slot t).told? (decide (limit ≤ x.now)) = some ending := by
  rw [look, held] at told
  dsimp only at told
  rw [← await_fst]
  generalize x.registry.await t limit x.now = result at told
  obtain ⟨ending?, r⟩ := result
  cases ending? with
  | none => cases told
  | some found => exact congrArg some (Answer.told.inj told)

theorem look_idle {t : Ticket} (held : x.holds h = some ⟨t, none⟩) : x.look h = (.unknown, x) := by
  rw [look, held]

theorem filled_of_step (sound : x.Sound) (op : Op) {t : Ticket} (holds : x.Holds h t)
    (filled : x.registry.slot t = .filled ending) :
    (x.event op).Dismisses h t ending ∨
      (x.step op).2.Holds h t ∧ (x.step op).2.registry.slot t = .filled ending := by
  have left := (slot_eq_filled_iff sound.valid).mp filled
  rcases (step_change sound op).stays_or_goes sound holds with stays | ⟨rfl | rfl, _, gone⟩
  · refine Or.inr ⟨stays, (slot_eq_filled_iff (step_sound sound op).valid).mpr ?_⟩
    obtain ⟨hold, held, rfl⟩ := stays
    rcases (step_change sound op).cases sound with ⟨_, _, kept, recedes, _⟩ | ⟨_, _, _, _, _, _, enters, same⟩
    · cases keep : kept (hold.ticket.serial, ending) with
      | true => exact recedes.sheds.mem_endings.mpr (Or.inr ⟨left, keep⟩)
      | false => exact absurd rfl (recedes.keeps _ left keep h hold held)
    · rw [same]
      exact enters.endings ▸ left
  · obtain ⟨⟨ticket, until?⟩, held, rfl⟩ := holds
    cases until? with
    | none =>
      have idle : (x.step (.look h)).2 = x := congrArg Prod.snd (look_idle held)
      rw [idle] at gone
      exact absurd left (gone ending)
    | some limit =>
      have told : (x.look h).1 = .told ending := by
        refine look_told held ?_
        rw [filled]
        rfl
      exact Or.inl (Or.inr ⟨rfl, told, h, _, rfl, held, rfl⟩)
  · exact Or.inl (Or.inl rfl)

theorem filled_of_after (sound : x.Sound) (ops : List Op) {t : Ticket} (holds : x.Holds h t)
    (filled : x.registry.slot t = .filled ending) :
    (∃ e ∈ x.events ops, e.Dismisses h t ending) ∨
      (x.after ops).Holds h t ∧ (x.after ops).registry.slot t = .filled ending := by
  induction ops generalizing x with
  | nil => exact Or.inr ⟨holds, filled⟩
  | cons op ops ih =>
    rcases filled_of_step sound op holds filled with dismissed | ⟨stays, still⟩
    · exact Or.inl ⟨_, List.mem_cons_self, dismissed⟩
    · rcases ih (step_sound sound op) stays still with ⟨e, member, dismissed⟩ | rest
      · exact Or.inl ⟨e, List.mem_cons_of_mem _ member, dismissed⟩
      · exact Or.inr rest

theorem Paired.resolve_fills (paired : x.Paired) (sound : x.Sound) {id reply : String}
    (found : (x.step (.resolve id reply)).1 = .flag true) : ∃ h t, x.Holds h t ∧ t.id = id ∧
      (x.step (.resolve id reply)).2.Holds h t ∧
      (x.step (.resolve id reply)).2.registry.slot t = .filled (.reply reply) := by
  rcases resolve_cases sound.valid.toShaped x.now id reply with ⟨p, pending, _, sheds⟩ | ⟨_, no, _⟩
  · obtain ⟨h, holds⟩ := paired.called _ pending
    refine ⟨h, _, holds, rfl, holds, ?_⟩
    exact sheds.slot_sent sound.valid (List.mem_singleton_self _)
  · have no : (x.step (.resolve id reply)).1 = .flag false := congrArg Answer.flag no
    rw [no] at found
    cases found

/-! ### In every run -/

/-- What is sent arrives, and stays with its caller. -/
structure Delivers (x : Hall) : Prop where
  /-- An ending is sent to a caller that is there and has none. -/
  arrives : ∀ op, ∀ f ∈ (x.step op).2.registry.endings, f ∉ x.registry.endings →
    ∃ h t, x.Holds h t ∧ t.serial = f.1 ∧ x.registry.slot t = .empty ∧
      (x.step op).2.Holds h t ∧ (x.step op).2.registry.slot t = .filled f.2
  /-- A reply that found a call is in its caller's slot, whatever happens, until that caller goes. -/
  keeps : ∀ id reply, (x.step (.resolve id reply)).1 = .flag true → ∃ h t, x.Holds h t ∧ t.id = id ∧
    ∀ later, (∃ e ∈ (x.step (.resolve id reply)).2.events later, e.Dismisses h t (.reply reply)) ∨
      ((x.step (.resolve id reply)).2.after later).Holds h t ∧
        ((x.step (.resolve id reply)).2.after later).registry.slot t = .filled (.reply reply)
  /-- No caller is left with a slot into which nothing can be sent, so that only a caller whose call was
  cancelled is told so. -/
  open_ : ∀ h t, x.Holds h t → x.registry.slot t ≠ .closed
  cancelled : ∀ h, (x.step (.look h)).1 = .told .cancelled →
    ∃ t, x.Holds h t ∧ x.registry.slot t = .filled .cancelled

theorem Corresponds.open_ (corresponds : x.Corresponds) {t : Ticket} (holds : x.Holds h t) :
    x.registry.slot t ≠ .closed := by
  rcases corresponds.served h t holds with ⟨_, _, _, empty⟩ | ⟨ending, filled⟩
  · rw [empty]
    exact nofun
  · rw [filled]
    exact nofun

theorem Corresponds.cancelled (corresponds : x.Corresponds) (told : (x.look h).1 = .told .cancelled) :
    ∃ t, x.Holds h t ∧ x.registry.slot t = .filled .cancelled := by
  cases held : x.holds h with
  | none =>
    rw [look, held] at told
    cases told
  | some hold =>
    obtain ⟨t, until?⟩ := hold
    cases until? with
    | none =>
      rw [look_idle held] at told
      cases told
    | some limit =>
      have holds : x.Holds h t := ⟨_, held, rfl⟩
      refine ⟨t, holds, ?_⟩
      have sent := told_of_look held told
      rcases corresponds.served h t holds with ⟨_, _, _, empty⟩ | ⟨ending, filled⟩
      · rw [empty, Slot.told?] at sent
        split at sent
        · cases sent
        · cases sent
      · rw [filled] at sent ⊢
        rw [Option.some.inj sent]

theorem Paired.delivers (paired : x.Paired) (sound : x.Sound) : x.Delivers := by
  have corresponds := paired.corresponds sound
  refine ⟨fun op f => paired.send_arrives sound op, ?_, fun h t => corresponds.open_, fun h => corresponds.cancelled⟩
  intro id reply found
  obtain ⟨h, t, holds, same, stays, filled⟩ := paired.resolve_fills sound found
  exact ⟨h, t, holds, same, fun later => filled_of_after (step_sound sound _) later stays filled⟩

/-- In every run pending calls and callers correspond one to one, so that every ending is sent to a
caller that is there, and a reply that found a call is not lost while its caller is there. -/
theorem calls_and_callers_correspond (shards : Nat) (hash : String → UInt64) (ops : List Op) :
    ((start shards hash).after ops).Corresponds ∧ ((start shards hash).after ops).Delivers := by
  have sound := after_sound (start_sound shards hash) ops
  have paired := after_paired (start_sound shards hash) (start_paired shards hash) ops
  exact ⟨paired.corresponds sound, paired.delivers sound⟩

/-- The id is in use again and its second call is pending, and the reply for the first call is still
there for its caller, which is waiting. -/
theorem calls_and_callers_correspond_in_reuse :
    let x := (start 1 mix).after (reuse.take 2)
    ∃ h t, x.Holds h t ∧ t.id = "again" ∧
      ((x.step (.resolve "again" "one")).2.after [.register ⟨again, 2⟩ 9]).registry.slot t =
        .filled (.reply "one") := by
  obtain ⟨_, delivers⟩ := calls_and_callers_correspond 1 mix (reuse.take 2)
  obtain ⟨h, t, holds, id, kept⟩ := delivers.keeps "again" "one" (by decide +kernel)
  refine ⟨h, t, holds, id, ?_⟩
  rcases kept [.register ⟨again, 2⟩ 9] with ⟨e, member, dismissed⟩ | ⟨_, filled⟩
  · obtain rfl := List.mem_singleton.mp member
    rcases dismissed with drops | ⟨looks, _⟩
    · cases drops
    · cases looks
  · exact filled

end SoapRelay.Hall
