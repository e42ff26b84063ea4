import SoapRelay.Proofs.Calling
import SoapRelay.Proofs.Ledger
import SoapRelay.Proofs.Relay
import SoapRelay.Proofs.Stale

/-!
# A call cleans up after itself

A call is a run of a hall, and from that run it follows what the call leaves behind when it is over, whichever way it
ends: its registration has ended in one way and is counted so, and nothing of it is left.
-/

namespace SoapRelay

theorem Ending.forwarded_inj {a b : Ending} (same : a.forwarded = b.forwarded) : a = b := by
  cases a <;> cases b <;> cases same <;> rfl

namespace Hall

open Registry

variable {x : Hall} {op : Op} {h : Handle} {serial : Nat} {t : Ticket}

def Spent (r : Registry) (serial : Nat) : Prop :=
  serial ∉ r.serials ∧ ∀ ending, (serial, ending) ∉ r.endings

theorem Spent.next (spent : Spent x.registry serial) (sound : x.Sound) (issued : serial < x.registry.nextSerial) (op : Op) :
    Spent (x.step op).2.registry serial := by
  obtain ⟨gone, silent⟩ := spent
  have absent : ∀ e ∈ x.registry.entries, e.2.serial ≠ serial := by
    intro e member same
    exact gone (List.mem_map.mpr ⟨e, member, same⟩)
  rcases (step_change sound op).cases sound with ⟨_, _, _, recedes, _⟩ | ⟨_, _, ticket, r', _, given, enters, after⟩
  · constructor
    · intro member
      obtain ⟨e, stays, same⟩ := List.mem_map.mp member
      exact absent e (recedes.sheds.mem_entries.mp stays).1 same
    · intro ending left
      rcases recedes.sheds.mem_endings.mp left with new | ⟨old, _⟩
      · obtain ⟨e, member, _, same⟩ := recedes.sheds.ended _ new
        exact absent e member same
      · exact silent ending old
  · rw [after]
    constructor
    · intro member
      obtain ⟨e, stays, same⟩ := List.mem_map.mp member
      rcases enters.mem_entries.mp stays with rfl | old
      · have fresh : ticket.serial = x.registry.nextSerial := by rw [given]
        have same : ticket.serial = serial := same
        omega
      · exact absent e old same
    · intro ending left
      exact silent ending (enters.endings ▸ left)

/-- A caller that goes leaves nothing behind. -/
theorem spent_of_gone (sound : x.Sound) (holds : x.Holds h t) (op : Op) (gone : ¬(x.step op).2.Holds h t) :
    Spent (x.step op).2.registry t.serial := by
  rcases (step_change sound op).stays_or_goes sound holds with stays | ⟨own, bare, silent⟩
  · exact absurd stays gone
  · refine ⟨?_, silent⟩
    intro member
    obtain ⟨e, stays, same⟩ := List.mem_map.mp member
    obtain ⟨hold, held, rfl⟩ := holds
    -- the caller itself did this, and it registered nothing, so what stays was there before
    have before : e ∈ x.registry.entries := by
      rcases (step_change sound op).cases sound with ⟨_, _, _, recedes, _⟩ | ⟨_, _, _, _, answer, _, _, _⟩
      · exact (recedes.sheds.mem_entries.mp stays).1
      · rcases own with rfl | rfl
        · exact absurd answer (look_quiet x h _)
        · exact absurd answer (drop_quiet x h _)
    have id := entry_of_hold sound held before same
    exact bare ⟨e.2, id ▸ stays, same⟩

theorem Spent.slot (spent : Spent x.registry t.serial) (sound : x.Sound) : x.registry.slot t = .closed := by
  obtain ⟨gone, silent⟩ := spent
  cases shows : x.registry.slot t with
  | empty =>
    obtain ⟨p, pending, same⟩ := (slot_eq_empty_iff sound.valid).mp shows
    exact absurd (List.mem_map.mpr ⟨_, pending, same⟩) gone
  | filled ending => exact absurd ((slot_eq_filled_iff sound.valid).mp shows) (silent ending)
  | closed => rfl

theorem events_more (shards : Nat) (hash : String → UInt64) (history more : List Op) {e : Event}
    (member : e ∈ (start shards hash).events history) :
    e ∈ (start shards hash).events (history ++ more) := by
  rw [events_append]
  exact List.mem_append_left _ member

theorem begun_more (shards : Nat) (hash : String → UInt64) (history more : List Op) {serial : Nat}
    (member : serial ∈ begun ((start shards hash).events history)) :
    serial ∈ begun ((start shards hash).events (history ++ more)) := by
  rw [events_append, begun_append]
  exact List.mem_append_left _ member

theorem spares_of_serial (x : Hall) (h : Handle) (next serial : Nat) :
    Spares x (x.withRegistry { x.registry with nextSerial := next }) h serial :=
  ⟨rfl, ⟨fun _ _ => Iff.rfl, fun _ _ => rfl⟩, fun _ _ => rfl⟩

end Hall

namespace Calling

open Hall

variable {x : Calling} {act : Act} {acts : List Act} {t : Ticket}

/-! ### What is known of a call -/

def Stage.ticket? (stage : Stage) : Option Ticket :=
  stage.hold?.map (·.ticket)

theorem Stage.hold?_of_isOver {stage : Stage} (finished : stage.isOver = true) : stage.hold? = none := by
  cases stage with
  | returned r => rfl
  | dropped => rfl
  | called => cases finished
  | publishing p => cases finished
  | waiting t => cases finished

theorem Stage.ticket?_of_isOver {stage : Stage} (finished : stage.isOver = true) : stage.ticket? = none := by
  rw [ticket?, hold?_of_isOver finished]
  rfl

theorem Keeps.holds (keeps : x.Keeps) (kept : x.stage.ticket? = some t) : x.hall.Holds x.own t := by
  obtain ⟨hold, held, same⟩ := Option.map_eq_some_iff.mp kept
  exact ⟨hold, keeps.trans held, same⟩

theorem Does.own {y : Calling} {op? : Option Hall.Op} (does : x.Does act op? y) : y.own = x.own := by
  cases does <;> rfl

section

variable {shards : Nat} {hash : String → UInt64} {history : List Hall.Op} {y : Calling} {op? : Option Hall.Op}

/-- Where a call stands after a run of the hall. -/
structure Stands (shards : Nat) (hash : String → UInt64) (history : List Hall.Op) (x : Calling) : Prop where
  hall : x.hall = (Hall.start shards hash).after history
  keeps : x.Keeps
  given : ∀ t, x.stage.ticket? = some t → x.ticket? = some t
  early : x.stage = .called → x.ticket? = none
  begins : ∀ t, x.ticket? = some t → t.serial ∈ begun ((Hall.start shards hash).events history)
  spent : x.stage.isOver = true → ∀ t, x.ticket? = some t → Spent x.registry t.serial
  failed : ∀ r, x.stage = .returned r → x.ticket? = none → ∃ e, r = .error e ∧ e.unregistered = true
  /-- A call that was registered returns what its caller was told, unless its request was not taken. -/
  told : ∀ r, x.stage = .returned r → ∀ t, x.ticket? = some t → (∃ topic, r = .error (.publish topic)) ∨
    ∃ ending, r = ending.forwarded ∧ ∃ e ∈ (Hall.start shards hash).events history, e.Tells t ending

theorem start_stands (client : Client) (own : Handle) (request : ForwardRequest) (shards : Nat)
    (hash : String → UInt64) : Stands shards hash [] (start client own request shards hash) :=
  ⟨rfl, rfl, nofun, fun _ => rfl, nofun, nofun, nofun, nofun⟩

theorem Stands.sound (stands : Stands shards hash history x) : x.hall.Sound := by
  rw [stands.hall]
  exact after_sound (start_sound shards hash) history

theorem Stands.issued (stands : Stands shards hash history x) (given : x.ticket? = some t) :
    t.serial < x.registry.nextSerial := by
  have ledger := after_ledger shards hash history
  rw [← stands.hall] at ledger
  exact ledger.issued _ (stands.begins t given)

theorem Stands.free (stands : Stands shards hash history x) (stage : x.stage = .called) : x.hall.holds x.own = none :=
  stands.keeps.held stage

theorem Stands.next_hall (stands : Stands shards hash history x) (does : x.Does act op? y) :
    y.hall = (Hall.start shards hash).after (history ++ op?.toList) ∧ y.Keeps := by
  obtain ⟨hall, keeps⟩ := does.hall stands.keeps
  rw [after_append, ← stands.hall]
  exact ⟨hall, keeps⟩

/-- The call has come no further, and it has its ticket still. -/
theorem Stands.stay (stands : Stands shards hash history x) (does : x.Does act op? y) (stage : y.stage = x.stage)
    (ticket : y.ticket? = x.ticket?) : Stands shards hash (history ++ op?.toList) y := by
  obtain ⟨hall, keeps⟩ := stands.next_hall does
  refine ⟨hall, keeps, ?_, ?_, ?_, ?_, ?_, ?_⟩
  · rw [stage, ticket]
    exact stands.given
  · rw [stage, ticket]
    exact stands.early
  · rw [ticket]
    exact fun t given => begun_more shards hash history _ (stands.begins t given)
  · rw [stage, ticket]
    intro finished t given
    have spent := stands.spent finished t given
    have after := congrArg Hall.registry (does.hall stands.keeps).1
    rw [show y.registry = _ from after]
    cases op? with
    | none => exact spent
    | some op => exact Spent.next spent stands.sound (stands.issued given) op
  · rw [stage, ticket]
    exact stands.failed
  · rw [stage, ticket]
    intro r returned t given
    refine (stands.told r returned t given).imp_right ?_
    rintro ⟨ending, same, e, member, tells⟩
    exact ⟨ending, same, e, events_more shards hash history _ member, tells⟩

/-- The call is over before there was a ticket. -/
theorem Stands.fails (stands : Stands shards hash history x) (does : x.Does act op? y) (stage : x.stage = .called)
    (ticket : y.ticket? = x.ticket?) (finished : y.stage.isOver = true)
    (failed : ∀ r, y.stage = .returned r → ∃ e, r = .error e ∧ e.unregistered = true) :
    Stands shards hash (history ++ op?.toList) y := by
  obtain ⟨hall, keeps⟩ := stands.next_hall does
  have none : y.ticket? = none := ticket.trans (stands.early stage)
  have never : ∀ t, y.ticket? ≠ some t := by
    intro t given
    cases none.symm.trans given
  refine ⟨hall, keeps, ?_, fun _ => none, ?_, ?_, fun r returned _ => failed r returned, ?_⟩
  · intro t kept
    cases (Stage.ticket?_of_isOver finished).symm.trans kept
  · exact fun t given => absurd given (never t)
  · exact fun _ t given => absurd given (never t)
  · exact fun _ _ t given => absurd given (never t)

/-- The call is over, and its caller has given its ticket up. -/
theorem Stands.ends {op : Hall.Op} (stands : Stands shards hash history x) (does : x.Does act (some op) y)
    (kept : x.stage.ticket? = some t) (ticket : y.ticket? = x.ticket?) (finished : y.stage.isOver = true)
    (told : ∀ r, y.stage = .returned r → (∃ topic, r = .error (.publish topic)) ∨
      ∃ ending, r = ending.forwarded ∧ (x.hall.event op).Tells t ending) :
    Stands shards hash (history ++ [op]) y := by
  obtain ⟨hall, keeps⟩ := stands.next_hall does
  have given := stands.given t kept
  have same : ∀ u, y.ticket? = some u → u = t := by
    intro u also
    rw [ticket, given] at also
    exact (Option.some.inj also).symm
  refine ⟨hall, keeps, ?_, ?_, ?_, ?_, ?_, ?_⟩
  · intro u still
    cases (Stage.ticket?_of_isOver finished).symm.trans still
  · intro called
    rw [called] at finished
    cases finished
  · rw [ticket]
    exact fun u given => begun_more shards hash history _ (stands.begins u given)
  · intro _ u also
    obtain rfl := same u also
    have after : y.hall = (x.hall.step op).2 := (does.hall stands.keeps).1
    have gone : ¬(x.hall.step op).2.Holds x.own u := by
      rw [← after]
      rintro ⟨hold, held, _⟩
      have none : y.holds y.own = none := keeps.trans (Stage.hold?_of_isOver finished)
      rw [does.own] at none
      cases none.symm.trans held
    have spent := spent_of_gone stands.sound (stands.keeps.holds kept) op gone
    rw [← after] at spent
    exact spent
  · intro _ _ none
    rw [ticket, given] at none
    cases none
  · intro r returned u also
    obtain rfl := same u also
    refine (told r returned).imp_right ?_
    rintro ⟨ending, same, tells⟩
    refine ⟨ending, same, x.hall.event op, ?_, tells⟩
    rw [events_append, ← stands.hall]
    exact List.mem_append_right _ (List.mem_singleton.mpr rfl)

theorem Stands.next (stands : Stands shards hash history x) (act : Act) :
    Stands shards hash (history ++ (x.opOf? act).toList) (x.step act) := by
  have does := x.step_does act
  generalize x.opOf? act = op? at does ⊢
  generalize x.step act = y at does ⊢
  cases does with
  | nothing => exact stands.stay (.nothing (a := act)) rfl rfl
  | bus => exact stands.stay .bus rfl rfl
  | other foreign => exact stands.stay (.other foreign) rfl rfl
  | waits stage awaited => exact stands.stay (.waits stage awaited) rfl rfl
  | leaves stage => exact stands.fails (.leaves stage) stage rfl rfl nofun
  | failed stage now registry early =>
    refine stands.fails (.failed stage now registry early) stage rfl rfl ?_
    rintro _ ⟨⟩
    exact ⟨_, rfl, early⟩
  | refused stage now registry none =>
    refine stands.fails (.refused stage now registry none) stage rfl rfl ?_
    rintro _ ⟨⟩
    exact ⟨_, rfl, rfl⟩
  | @placed scene deadline p stage now registry given =>
    obtain ⟨hall, keeps⟩ := stands.next_hall (.placed stage now registry given)
    refine ⟨hall, keeps, fun _ => id, nofun, ?_, nofun, nofun, nofun⟩
    rintro t ⟨⟩
    have answer : (x.hall.event (.register x.own deadline)).answer = .registered p.ticket :=
      congrArg Prod.fst (register_given_of_free (stands.free stage) given)
    -- the registration is the last event of the run
    rw [events_append, ← stands.hall, begun_append]
    refine List.mem_append_right _ ?_
    show _ ∈ begun [x.hall.event (.register x.own deadline)]
    rw [begun_singleton, Event.begun, answer]
    exact List.mem_singleton.mpr rfl
  | @published scene p stage now registry =>
    obtain ⟨hall, keeps⟩ := stands.next_hall (.published stage now registry)
    refine ⟨hall, keeps, ?_, nofun, ?_, nofun, nofun, nofun⟩
    · intro t kept
      refine stands.given t ?_
      rw [stage]
      exact kept
    · exact fun t given => begun_more shards hash history _ (stands.begins t given)
  | @unpublished scene p topic stage now registry =>
    refine stands.ends (.unpublished stage now registry) (t := p.ticket) (by rw [stage]; rfl) rfl rfl ?_
    rintro _ ⟨⟩
    exact Or.inl ⟨topic, rfl⟩
  | @told t r ending stage awaited =>
    refine stands.ends (.told stage awaited) (t := t) (by rw [stage]; rfl) rfl rfl ?_
    rintro _ ⟨⟩
    have held := stands.keeps.held stage
    refine Or.inr ⟨ending, rfl, ?_, x.own, _, rfl, held, rfl⟩
    refine look_told held ?_
    rw [← Registry.await_fst]
    exact congrArg Prod.fst awaited
  | @withdraws t stage =>
    refine stands.ends (.withdraws stage) (t := t) ?_ rfl rfl nofun
    rcases stage with ⟨p, stage, rfl⟩ | stage
    · rw [stage]
      rfl
    · rw [stage]
      rfl

theorem ops_append (x : Calling) (first second : List Act) :
    x.ops (first ++ second) = x.ops first ++ (x.after first).ops second := by
  induction first generalizing x with
  | nil => rfl
  | cons act first ih =>
    show (x.opOf? act).toList ++ (x.step act).ops (first ++ second) = _
    rw [ih, ← List.append_assoc]
    rfl

theorem after_append (x : Calling) (first second : List Act) : x.after (first ++ second) = (x.after first).after second :=
  List.foldl_append

theorem after_cons (x : Calling) (act : Act) (acts : List Act) : x.after (act :: acts) = (x.step act).after acts :=
  rfl

theorem after_stands (client : Client) (own : Handle) (request : ForwardRequest) (shards : Nat)
    (hash : String → UInt64) (acts : List Act) :
    Stands shards hash ((start client own request shards hash).ops acts)
      ((start client own request shards hash).after acts) := by
  induction acts using List.reverseRecOn with
  | nil => exact start_stands client own request shards hash
  | append_singleton acts act ih =>
    have next := ih.next act
    rw [ops_append, after_append]
    show Stands shards hash (_ ++ (_ ++ [])) _
    rw [List.append_nil]
    exact next

/-! ### What a call does to others -/

/-- What an act of the caller's may change at the registry. -/
structure Discreet (x y : Calling) : Prop where
  /-- As long as there is no ticket, it may use up a serial. -/
  early : y.ticket? = none → ∃ next, y.hall = x.hall.withRegistry { x.registry with nextSerial := next }
  spares : ∀ t, y.ticket? = some t → Hall.Spares x.hall y.hall x.own t.serial

theorem Discreet.of_same (same : y.hall = x.hall) : x.Discreet y := by
  refine ⟨fun _ => ⟨x.registry.nextSerial, same⟩, ?_⟩
  intro t _
  rw [same]
  exact .refl x.hall x.own t.serial

theorem Stands.discreet_of_own {op : Hall.Op} (stands : Stands shards hash history x) (does : x.Does act (some op) y)
    (kept : x.stage.ticket? = some t) (ticket : y.ticket? = x.ticket?) (own : op.By x.own) : x.Discreet y := by
  have given := stands.given t kept
  have after : y.hall = (x.hall.step op).2 := (does.hall stands.keeps).1
  refine ⟨?_, ?_⟩
  · intro none
    rw [ticket, given] at none
    cases none
  · intro u also
    rw [ticket, given] at also
    obtain rfl := Option.some.inj also
    obtain ⟨hold, held, rfl⟩ := stands.keeps.holds kept
    rw [after]
    exact own_spares stands.sound held own

theorem Stands.discreet (stands : Stands shards hash history x) (act : Act) (own : act.own = true) :
    x.Discreet (x.step act) := by
  have does := x.step_does act
  generalize x.opOf? act = op? at does
  generalize x.step act = y at does ⊢
  cases does with
  | nothing => exact .of_same rfl
  | bus => cases own
  | other foreign => cases own
  | leaves stage => exact .of_same rfl
  | failed stage now registry early =>
    exact .of_same ((Does.failed stage now registry early).hall stands.keeps).1
  | @refused scene deadline stage now registry none =>
    have hall := ((Does.refused stage now registry none).hall stands.keeps).1
    refine ⟨?_, ?_⟩
    · intro _
      have answer := congrArg Prod.fst (register_refused_of_free (stands.free stage) none)
      exact ⟨x.registry.nextSerial + 1, hall.trans (duplicate_leaves answer)⟩
    · intro t given
      cases (stands.early stage).symm.trans given
  | @placed scene deadline p stage now registry given =>
    have hall := ((Does.placed stage now registry given).hall stands.keeps).1
    refine ⟨nofun, ?_⟩
    rintro t ⟨⟩
    rw [hall]
    show Hall.Spares x.hall (x.hall.step (.register x.own deadline)).2 x.own p.ticket.serial
    rw [register_given_of_free (stands.free stage) given]
    apply spares_of_registry
    rcases Registry.register_cases stands.sound.valid.toShaped x.hall.now x.own.id deadline with
      ⟨_, _, refused, _⟩ | ⟨_, accepted, enters⟩
    · cases refused.symm.trans given
    · rw [← Option.some.inj (accepted.symm.trans given)]
      exact enters.spares stands.sound.valid
  | @published scene p stage now registry =>
    exact stands.discreet_of_own (.published stage now registry) (t := p.ticket) (by rw [stage]; rfl) rfl (.wait none)
  | @unpublished scene p topic stage now registry =>
    exact stands.discreet_of_own (.unpublished stage now registry) (t := p.ticket)
      (by rw [stage]; rfl) rfl .drop
  | @waits t r stage awaited =>
    exact stands.discreet_of_own (.waits stage awaited) (t := t) (by rw [stage]; rfl) rfl .look
  | @told t r ending stage awaited =>
    exact stands.discreet_of_own (.told stage awaited) (t := t) (by rw [stage]; rfl) rfl .look
  | @withdraws t stage =>
    refine stands.discreet_of_own (.withdraws stage) (t := t) ?_ rfl .drop
    rcases stage with ⟨p, stage, rfl⟩ | stage
    · rw [stage]
      rfl
    · rw [stage]
      rfl

/-! ### A whole run -/

theorem Stands.ticket_next (stands : Stands shards hash history x) (act : Act) (given : x.ticket? = some t) :
    (x.step act).ticket? = some t := by
  have does := x.step_does act
  generalize x.opOf? act = op? at does
  generalize x.step act = y at does ⊢
  cases does with
  | placed stage now registry answer => cases (stands.early stage).symm.trans given
  | _ => exact given

theorem Stands.ticket_after (stands : Stands shards hash history x) (acts : List Act) (given : x.ticket? = some t) :
    (x.after acts).ticket? = some t := by
  induction acts generalizing x history with
  | nil => exact given
  | cons act acts ih => exact ih (stands.next act) (stands.ticket_next act given)

theorem own_after (x : Calling) (acts : List Act) : (x.after acts).own = x.own := by
  induction acts generalizing x with
  | nil => rfl
  | cons act acts ih => exact (ih (x.step act)).trans (x.step_does act).own

/-- What an act is allowed to do by what becomes of its call in the end. -/
theorem Stands.discreet_before (stands : Stands shards hash history x) (act : Act) (own : act.own = true)
    (rest : List Act) :
    (((x.step act).after rest).ticket? = none →
      ∃ next, (x.step act).hall = x.hall.withRegistry { x.registry with nextSerial := next }) ∧
    ∀ t, ((x.step act).after rest).ticket? = some t → Hall.Spares x.hall (x.step act).hall x.own t.serial := by
  have discreet := stands.discreet act own
  have next := stands.next act
  cases ticket : (x.step act).ticket? with
  | none =>
    obtain ⟨serial, same⟩ := discreet.early ticket
    refine ⟨fun _ => ⟨serial, same⟩, ?_⟩
    intro t _
    rw [same]
    exact spares_of_serial x.hall x.own serial t.serial
  | some u =>
    have last := next.ticket_after rest ticket
    refine ⟨?_, ?_⟩
    · intro none
      cases none.symm.trans last
    · intro t given
      obtain rfl := Option.some.inj (given.symm.trans last)
      exact discreet.spares t ticket

/-- What is left of a call that was registered and is over, after these events. Its registration has ended in one way
and is counted, and nothing of it is there any more. -/
structure CleanedUp (x : Calling) (t : Ticket) (events : List Hall.Event) : Prop where
  gone : t.serial ∉ x.registry.serials
  slot : x.registry.slot t = .closed
  released : x.holds x.own = none
  registered : x.registry.stats.registered = UInt64.ofNat (others t.serial (begun events)).length + 1
  ended : ∃ way,
    (∀ w, x.registry.stats.counter w =
      UInt64.ofNat (others t.serial (ended w events)).length + if w = way then 1 else 0) ∧
    ∀ ending : Ending, x.stage = .returned ending.forwarded → way = ending.way

theorem Stands.cleanedUp (stands : Stands shards hash history x) (finished : x.stage.isOver = true)
    (given : x.ticket? = some t) : x.CleanedUp t ((Hall.start shards hash).events history) := by
  have ledger := after_ledger shards hash history
  rw [← stands.hall] at ledger
  have begins := stands.begins t given
  have spent := stands.spent finished t given
  obtain ⟨way, once⟩ := ledger.ended_once begins spent.1
  refine ⟨spent.1, spent.slot stands.sound, stands.keeps.trans (Stage.hold?_of_isOver finished), ?_, way, ?_, ?_⟩
  · have one : (begun ((Hall.start shards hash).events history)).count t.serial = 1 :=
      Nat.le_antisymm (ledger.once t.serial) (List.count_pos_iff.mpr begins)
    refine ledger.registered.trans ?_
    rw [length_others _ t.serial, one, UInt64.ofNat_add]
    rfl
  · intro w
    refine (ledger.counted w).trans ?_
    rw [length_others _ t.serial, once, UInt64.ofNat_add]
    split
    · rfl
    · rfl
  · intro ending returned
    rcases stands.told _ returned t given with ⟨topic, unpublished⟩ | ⟨other, same, e, member, tells⟩
    · cases ending <;> cases unpublished
    · obtain rfl := Ending.forwarded_inj same
      have ended := ended_of_tells member tells
      have counts := once ending.way
      by_contra different
      rw [if_neg fun same => different same.symm] at counts
      exact List.count_eq_zero.mp counts ended

/-- Whatever else goes on, a call that was never registered has at most used up a serial, and if it returned, it says
why it was not registered. What the caller of a registered call does spares the calls, the endings and the tickets of
all others, and once the call is over, its registration has ended in one way, is counted so, and nothing of it is
left. -/
theorem call_cleans_up_after_itself (client : Client) (own : Handle) (request : ForwardRequest) (shards : Nat)
    (hash : String → UInt64) (acts : List Act) :
    let x := start client own request shards hash
    let y := x.after acts
    y.hall = (Hall.start shards hash).after (x.ops acts) ∧
      (y.ticket? = none →
        (∀ past act rest, acts = past ++ act :: rest → act.own = true → ∃ next,
          (x.after (past ++ [act])).hall =
            (x.after past).hall.withRegistry { (x.after past).registry with nextSerial := next }) ∧
        ∀ result, y.stage = .returned result → ∃ e, result = .error e ∧ e.unregistered = true) ∧
      ∀ t, y.ticket? = some t →
        (∀ past act rest, acts = past ++ act :: rest → act.own = true →
          Hall.Spares (x.after past).hall (x.after (past ++ [act])).hall own t.serial) ∧
        (y.stage.isOver = true → y.CleanedUp t ((Hall.start shards hash).events (x.ops acts))) := by
  intro x y
  have stands : Stands shards hash (x.ops acts) y := after_stands client own request shards hash acts
  refine ⟨stands.hall, ?_, ?_⟩
  · intro none
    refine ⟨?_, fun result returned => stands.failed result returned none⟩
    rintro past act rest same mine
    have discreet := (after_stands client own request shards hash past).discreet_before act mine rest
    rw [← after_cons, ← after_append, ← same] at discreet
    rw [after_append]
    exact discreet.1 none
  · intro t given
    refine ⟨?_, fun finished => stands.cleanedUp finished given⟩
    rintro past act rest same mine
    have discreet := (after_stands client own request shards hash past).discreet_before act mine rest
    rw [← after_cons, ← after_append, ← same, own_after] at discreet
    rw [after_append]
    exact discreet.2 t given

end

/-- A call whose id others use as well. -/
def contested : Calling :=
  start Relay.Loopback.client ⟨Relay.Loopback.call.id, 1⟩ Relay.Loopback.call.request 1 Registry.mix

/-- The reply comes while the request is being published, and then the id is in use again. -/
def overtaken : List Act :=
  [.place, .other (.resolve "1" "early"), .other (.register ⟨Relay.Loopback.call.id, 2⟩ 50), .publish,
    .other (.pass 3), .look]

def crowded : List Act :=
  [.other (.register ⟨Relay.Loopback.call.id, 2⟩ 50), .place]

/-- A caller that is served early leaves the next call under its id alone, and a caller that is refused leaves the
call alone for which it is refused. -/
theorem call_cleans_up_after_itself_of_contested :
    let y := contested.after overtaken
    let z := contested.after crowded
    y.ticket? = some ⟨"1", 0, 1000⟩ ∧ y.stage = .returned (.ok "early") ∧
      y.CleanedUp ⟨"1", 0, 1000⟩ ((Hall.start 1 Registry.mix).events (contested.ops overtaken)) ∧
      Hall.Spares (contested.after (overtaken.take 5)).hall y.hall ⟨Relay.Loopback.call.id, 1⟩ 0 ∧
      y.registry.slot ⟨"1", 1, 50⟩ = .empty ∧
      z.ticket? = none ∧ z.stage = .returned (.error (.duplicate Relay.Loopback.call.id)) ∧
      ∃ next, z.hall = (contested.after (crowded.take 1)).hall.withRegistry
        { (contested.after (crowded.take 1)).registry with nextSerial := next } := by
  intro y z
  have served : (contested.after overtaken).stage = .returned (.ok "early") := by rfl
  have refused : (contested.after crowded).stage = .returned (.error (.duplicate Relay.Loopback.call.id)) := by rfl
  have given : y.ticket? = some ⟨"1", 0, 1000⟩ := by decide +kernel
  have none : z.ticket? = none := by decide +kernel
  obtain ⟨-, -, registered⟩ := call_cleans_up_after_itself Relay.Loopback.client ⟨Relay.Loopback.call.id, 1⟩
    Relay.Loopback.call.request 1 Registry.mix overtaken
  obtain ⟨-, unregistered, -⟩ := call_cleans_up_after_itself Relay.Loopback.client ⟨Relay.Loopback.call.id, 1⟩
    Relay.Loopback.call.request 1 Registry.mix crowded
  obtain ⟨spares, cleaned⟩ := registered _ given
  obtain ⟨quiet, -⟩ := unregistered none
  have finished : y.stage.isOver = true := by decide +kernel
  refine ⟨given, served, cleaned finished, ?_, by decide +kernel, none, refused, ?_⟩
  · exact spares (overtaken.take 5) .look [] rfl rfl
  · exact quiet (crowded.take 1) .place [] rfl rfl

end Calling

end SoapRelay
