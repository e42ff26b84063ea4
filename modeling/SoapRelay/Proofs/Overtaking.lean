import Mathlib.Data.List.Induction
import Mathlib.Data.List.Nodup
import SoapRelay.Proofs.Advance
import SoapRelay.Proofs.Exchange
import SoapRelay.Proofs.Relay

/-!
# No reply overtakes its call

A call is registered before its request is published, and a request leads to one reply at most. So no id is
carried by two messages at once or again, and a reply that nobody waits for comes after its call was registered
and has ended without it.
-/

namespace SoapRelay

variable {client : Client} {platform : Platform}

/-! ### Where a run begins -/

namespace Exchange

theorem enlist_waiting (bus : Bus) (consumers : List (Role × Consumer)) (topic : String) :
    ((enlist bus consumers).1.topic topic).waiting = (bus.topic topic).waiting := by
  induction consumers generalizing bus with
  | nil => rfl
  | cons first rest ih =>
    obtain ⟨role, c⟩ := first
    unfold enlist
    split
    · rename_i after subscribed
      dsimp only
      rw [ih after, (Bus.subscribe?_cases subscribed).2]
      split
      · rename_i here
        rw [here]
      · rfl
    · exact ih bus

theorem enlist_mem (bus : Bus) (consumers : List (Role × Consumer)) :
    ∀ t ∈ (enlist bus consumers).2, (t.role, t.worker.consumer) ∈ consumers := by
  induction consumers generalizing bus with
  | nil => exact nofun
  | cons first rest ih =>
    obtain ⟨role, c⟩ := first
    unfold enlist
    split
    · rename_i after subscribed
      intro t member
      rcases List.mem_cons.mp member with rfl | later
      · exact List.mem_cons_self ..
      · exact List.mem_cons_of_mem _ (ih after t later)
    · exact fun t member => List.mem_cons_of_mem _ (ih bus t member)

end Exchange

namespace Relay

variable {x y : Relay} {act : Act} {acts : List Act} {past later : List Event} {e : Event} {id : CallId}
  {consumers : List (Role × Consumer)} {hash : String → UInt64}

theorem start_orderly (separate : Separate client platform consumers) :
    Orderly client platform (start client platform consumers hash) := by
  refine ⟨⟨rfl, rfl⟩, Registry.create_valid _ _, nofun, ?_, ?_⟩
  · intro m member
    have waits : m ∈ ((Exchange.enlist .empty consumers).1.topic platform.repliesTopic).waiting := member
    rw [Exchange.enlist_waiting] at waits
    cases waits
  · intro t member
    have idle := enlist_idle .empty consumers t member
    refine ⟨separate.consumers _ (Exchange.enlist_mem .empty consumers t member), ?_, ?_, ?_⟩
    · rw [idle]
      exact nofun
    · rw [idle]
      exact nofun
    · rw [idle]
      exact nofun

theorem load_start (l : Lane) (client : Client) (platform : Platform) (consumers : List (Role × Consumer))
    (hash : String → UInt64) :
    l.load (start client platform consumers hash).scene.bus (start client platform consumers hash).stations = [] := by
  refine List.append_eq_nil_iff.mpr ⟨?_, List.flatMap_eq_nil_iff.mpr ?_⟩
  · show ((Exchange.enlist .empty consumers).1.topic l.topic).waiting.filterMap l.id? = []
    rw [Exchange.enlist_waiting]
    rfl
  · intro t member
    rw [Lane.carried, enlist_idle .empty consumers t member]
    exact ite_self _

/-! ### Events of a run -/

theorem events_concat (x : Relay) (acts : List Act) (act : Act) :
    x.events (acts ++ [act]) = x.events acts ++ [⟨x.after acts, act, (x.after acts).step act⟩] := by
  induction acts generalizing x with
  | nil => rfl
  | cons first rest ih => exact congrArg (_ :: ·) (ih (x.step first))

/-- What came before an event of a run is a run too. -/
theorem events_split (split : x.events acts = past ++ e :: later) : ∃ first act,
    past = x.events first ∧ e = ⟨x.after first, act, (x.after first).step act⟩ := by
  induction acts generalizing x past with
  | nil => exact absurd split.symm (List.append_ne_nil_of_right_ne_nil past (List.cons_ne_nil e later))
  | cons act rest ih =>
    cases past with
    | nil =>
      obtain ⟨rfl, _⟩ := List.cons.inj split
      exact ⟨[], act, rfl, rfl⟩
    | cons f past =>
      obtain ⟨rfl, others⟩ := List.cons.inj split
      obtain ⟨first, next, rfl, rfl⟩ := ih others
      exact ⟨act :: first, next, rfl, rfl⟩

namespace Event

theorem registered_cases (member : id ∈ e.registered) : (∃ name request, e.act = .place name id request) ∧
    ∃ p, e.after.desk.registry.find? id.text = some p := by
  obtain ⟨before, act, after⟩ := e
  cases act with
  | place name other request =>
    dsimp only [registered] at member
    split at member
    · rename_i registers
      obtain rfl := List.mem_singleton.mp member
      exact ⟨⟨name, request, rfl⟩, Option.isSome_iff_exists.mp (Bool.and_eq_true_iff.mp registers).2⟩
    · cases member
  | _ => cases member

theorem registered_nodup (e : Event) : e.registered.Nodup := by
  unfold registered
  split
  · split
    · exact List.nodup_singleton _
    · exact List.nodup_nil
  · exact List.nodup_nil

theorem registered_of_handled {message : String} (member : message ∈ e.handled) : e.registered = [] := by
  obtain ⟨before, act, after⟩ := e
  cases act with
  | go i k => rfl
  | _ => cases member

end Event

/-! ### What is known of a run -/

/-- The ids of the replies that came to a topic. -/
def replied (topic : String) (events : List Event) : List CallId :=
  (events.flatMap (Event.posted topic)).filterMap Reply.id?

/-- The ids of the replies that were handled. -/
def received (events : List Event) : List CallId :=
  (events.flatMap Event.handled).filterMap Reply.id?

def registrations (events : List Event) : List CallId :=
  events.flatMap Event.registered

theorem replied_concat (topic : String) (past : List Event) (e : Event) :
    replied topic (past ++ [e]) = replied topic past ++ (e.posted topic).filterMap Reply.id? := by
  rw [replied, List.flatMap_append, List.flatMap_singleton, List.filterMap_append]
  rfl

theorem received_concat (past : List Event) (e : Event) :
    received (past ++ [e]) = received past ++ e.handled.filterMap Reply.id? := by
  rw [received, List.flatMap_append, List.flatMap_singleton, List.filterMap_append]
  rfl

theorem registrations_concat (past : List Event) (e : Event) :
    registrations (past ++ [e]) = registrations past ++ e.registered := by
  rw [registrations, List.flatMap_append, List.flatMap_singleton]
  rfl

/-- An id was registered and its call has ended without a reply since. -/
def EndedSince (past : List Event) (f : Event) (id : CallId) : Prop :=
  ∃ g, [f, g].Sublist past ∧ g.Ends id

/-- What is known after some events. No id is on its way, or has been, more often than it was registered. -/
structure Traced (client : Client) (platform : Platform) (past : List Event) (x : Relay) : Prop where
  orderly : Orderly client platform x
  distinct : (registrations past).Nodup
  named : ∀ id ∈ registrations past, ∃ c ∈ x.made, c.id = id
  outgoing : ∀ id, (x.outgoing client).count id + (replied platform.repliesTopic past).count id ≤
    (registrations past).count id
  incoming : ∀ id, (x.incoming platform).count id + (received past).count id ≤
    (replied platform.repliesTopic past).count id
  genuine : ∀ m ∈ past.flatMap (Event.posted platform.repliesTopic), Genuine client.signer m
  fate : ∀ f ∈ past, ∀ id ∈ f.registered, (∃ p, x.desk.registry.find? id.text = some p) ∨
    EndedSince past f id ∨ id ∈ received past

namespace Traced

theorem start (separate : Separate client platform consumers) :
    Traced client platform [] (start client platform consumers hash) := by
  refine ⟨start_orderly separate, List.nodup_nil, nofun, fun id => ?_, fun id => ?_, nofun, fun f member => ?_⟩
  · have none : (Relay.start client platform consumers hash).outgoing client = [] := load_start client.lane ..
    rw [none]
    exact Nat.le_refl _
  · have none : (Relay.start client platform consumers hash).incoming platform = [] := load_start platform.lane ..
    rw [none]
    exact Nat.le_refl _
  · cases member

theorem next (traced : Traced client platform past x) (advances : Advances client platform ⟨x, act, y⟩)
    (undisturbed : (⟨x, act, y⟩ : Event).Undisturbed) : Traced client platform (past ++ [⟨x, act, y⟩]) y where
  orderly := advances.orderly
  distinct := by
    rw [registrations_concat]
    refine List.nodup_append.mpr ⟨traced.distinct, Event.registered_nodup _, ?_⟩
    rintro id old _ new rfl
    obtain ⟨c, made, same⟩ := traced.named id old
    obtain ⟨⟨name, request, rfl⟩, _⟩ := Event.registered_cases new
    exact undisturbed c made same
  named := by
    intro id member
    rw [registrations_concat] at member
    rcases List.mem_append.mp member with old | new
    · obtain ⟨c, made, same⟩ := traced.named id old
      exact ⟨c, advances.made c made, same⟩
    · exact advances.named id new
  outgoing id := by
    have before := traced.outgoing id
    have moved := advances.outgoing id
    rw [registrations_concat, replied_concat, List.count_append, List.count_append]
    dsimp only at moved
    omega
  incoming id := by
    have before := traced.incoming id
    have moved := advances.incoming id
    rw [received_concat, replied_concat, List.count_append, List.count_append]
    dsimp only at moved
    omega
  genuine := by
    intro m member
    rw [List.flatMap_append, List.flatMap_singleton] at member
    rcases List.mem_append.mp member with old | new
    · exact traced.genuine m old
    · exact advances.genuine m new
  fate := by
    intro f member id registered
    rw [received_concat]
    rcases List.mem_append.mp member with old | new
    · rcases traced.fate f old id registered with ⟨p, pending⟩ | ⟨g, since, ends⟩ | handled
      · rcases advances.stays id p pending with stays | ends | handled
        · exact Or.inl ⟨p, stays⟩
        · exact Or.inr (Or.inl ⟨_, (List.singleton_sublist.mpr old).append (.refl _), ends⟩)
        · exact Or.inr (Or.inr (List.mem_append_right _ handled))
      · exact Or.inr (Or.inl ⟨g, since.trans (List.sublist_append_left ..), ends⟩)
      · exact Or.inr (Or.inr (List.mem_append_left _ handled))
    · obtain rfl := List.mem_singleton.mp new
      exact Or.inl (Event.registered_cases registered).2

end Traced

theorem traced (separate : Separate client platform consumers) (trusts : client.signer.Trusts platform.signer)
    (undisturbed : ∀ e ∈ (start client platform consumers hash).events acts, e.Undisturbed) :
    Traced client platform ((start client platform consumers hash).events acts)
      ((start client platform consumers hash).after acts) := by
  induction acts using List.reverseRecOn with
  | nil => exact .start separate
  | append_singleton acts act ih =>
    rw [events_concat] at undisturbed ⊢
    rw [after_concat]
    have before := ih fun e member => undisturbed e (List.mem_append_left _ member)
    have last := undisturbed _ (List.mem_append_right _ (List.mem_singleton_self _))
    exact before.next (step_advances separate.topics trusts before.orderly act last) last

/-! ### Late replies -/

/-- A reply ends the call that waits for it. -/
structure Completes (e : Event) (reply : Reply) (p : PendingCall) : Prop where
  gone : e.after.desk.registry.find? reply.id.text = none
  told : (p.serial, .reply reply.response) ∈ e.after.desk.registry.endings
  completed : e.after.desk.registry.stats.completed = e.before.desk.registry.stats.completed + 1
  late : e.after.desk.registry.stats.late = e.before.desk.registry.stats.late

/-- What holds of the replies of a run. -/
structure NoOvertaking (client : Client) (platform : Platform) (events : List Event) : Prop where
  /-- A reply that is counted as late comes after its call was registered and has ended. -/
  late : ∀ past e later, events = past ++ e :: later →
    e.after.desk.registry.stats.late ≠ e.before.desk.registry.stats.late →
    ∃ message reply, e.handled = [message] ∧ Reply.decode message = .ok reply ∧ client.signer.verify reply = true ∧
      e.after.desk.registry.stats.late = e.before.desk.registry.stats.late + 1 ∧
      e.before.desk.registry.find? reply.id.text = none ∧
      ∃ f ∈ past, reply.id ∈ f.registered ∧ EndedSince past f reply.id
  /-- Whatever is posted is a reply, and no two replies have the same id. -/
  replies : ∀ m ∈ events.flatMap (Event.posted platform.repliesTopic), Genuine client.signer m
  once : (replied platform.repliesTopic events).Nodup
  completes : ∀ e ∈ events, ∀ message ∈ e.handled, ∃ reply, Reply.decode message = .ok reply ∧
    client.signer.verify reply = true ∧
    ∀ p, e.before.desk.registry.find? reply.id.text = some p → Completes e reply p

namespace Traced

theorem replied_nodup (traced : Traced client platform past x) : (replied platform.repliesTopic past).Nodup := by
  rw [List.nodup_iff_count_le_one]
  intro id
  have outgoing := traced.outgoing id
  have once := List.nodup_iff_count_le_one.mp traced.distinct id
  omega

/-- A reply that is handled, but for no call that is pending, was registered for and has not been handled before. -/
theorem ended_since (traced : Traced client platform past x) (after : Traced client platform (past ++ [⟨x, act, y⟩]) y)
    {message : String} {reply : Reply} (handled : (⟨x, act, y⟩ : Event).handled = [message])
    (read : Reply.decode message = .ok reply) (missing : x.desk.registry.find? reply.id.text = none) :
    ∃ f ∈ past, reply.id ∈ f.registered ∧ EndedSince past f reply.id := by
  have none : (⟨x, act, y⟩ : Event).registered = [] :=
    Event.registered_of_handled (handled ▸ List.mem_singleton_self message)
  have here : [message].filterMap Reply.id? = [reply.id] := by
    rw [List.filterMap_cons, Reply.id?_eq_some read]
    rfl
  have outgoing := after.outgoing reply.id
  have incoming := after.incoming reply.id
  rw [registrations_concat, none, List.append_nil] at outgoing
  rw [received_concat, handled, here, List.count_append, List.count_singleton_self] at incoming
  -- one reply is handled just now, so there was one registration, and there is no second
  have once := List.nodup_iff_count_le_one.mp traced.distinct reply.id
  have registered : reply.id ∈ registrations past := List.count_pos_iff.mp (by omega)
  have first : reply.id ∉ received past := by
    intro again
    have more := List.count_pos_iff.mpr again
    omega
  obtain ⟨f, member, registers⟩ := List.mem_flatMap.mp registered
  refine ⟨f, member, registers, ?_⟩
  rcases traced.fate f member reply.id registers with ⟨p, pending⟩ | since | again
  · cases missing.symm.trans pending
  · exact since
  · exact absurd again first

theorem late_ended (traced : Traced client platform past x) (advances : Advances client platform ⟨x, act, y⟩)
    (undisturbed : (⟨x, act, y⟩ : Event).Undisturbed)
    (late : y.desk.registry.stats.late ≠ x.desk.registry.stats.late) :
    ∃ message reply, (⟨x, act, y⟩ : Event).handled = [message] ∧ Reply.decode message = .ok reply ∧
      client.signer.verify reply = true ∧ y.desk.registry.stats.late = x.desk.registry.stats.late + 1 ∧
      x.desk.registry.find? reply.id.text = none ∧ ∃ f ∈ past, reply.id ∈ f.registered ∧ EndedSince past f reply.id := by
  obtain ⟨message, member⟩ := List.exists_mem_of_ne_nil _ (advances.late late)
  obtain ⟨reply, read, verified, handled, resolved⟩ := advances.resolves message member
  have resolved : y.desk.registry = (x.desk.registry.resolve x.scene.now reply.id.text reply.response).2 := resolved
  rw [resolved] at late ⊢
  cases pending : x.desk.registry.find? reply.id.text with
  | some p => exact absurd (Registry.resolve_pending traced.orderly.valid pending _ _).2.2.2 late
  | none =>
    have stats := Registry.stats_resolve x.desk.registry x.scene.now reply.id.text reply.response
    rw [pending] at stats
    exact ⟨message, reply, handled, read, verified, congrArg (·.late) stats, pending,
      traced.ended_since (traced.next advances undisturbed) handled read pending⟩

end Traced

/-- Whatever the two sides, their consumers and the callers do in whatever order, with requests and replies on topics
of their own and calls under ids of their own: a reply that is counted as late comes after its call was registered
and has timed out or been cancelled; an id gets one reply at most; and a reply to a call that is still pending
completes it. -/
theorem no_reply_overtakes_its_call (separate : Separate client platform consumers)
    (trusts : client.signer.Trusts platform.signer) (acts : List Act)
    (undisturbed : ∀ e ∈ (start client platform consumers hash).events acts, e.Undisturbed) :
    NoOvertaking client platform ((start client platform consumers hash).events acts) := by
  have whole := traced separate trusts undisturbed
  -- what comes before an event of the run is a run itself
  have parts : ∀ past e later, (start client platform consumers hash).events acts = past ++ e :: later →
      Traced client platform past e.before ∧ Advances client platform e ∧ e.Undisturbed := by
    intro past e later split
    have here : ∀ f ∈ past ++ [e], f.Undisturbed := by
      intro f member
      refine undisturbed f (split ▸ ?_)
      rw [List.append_cons]
      exact List.mem_append_left _ member
    have own := here e (List.mem_append_right _ (List.mem_singleton_self e))
    obtain ⟨first, act, rfl, rfl⟩ := events_split split
    have before := traced separate trusts fun f member => here f (List.mem_append_left _ member)
    exact ⟨before, step_advances separate.topics trusts before.orderly act own, own⟩
  refine ⟨?_, whole.genuine, whole.replied_nodup, ?_⟩
  · intro past e later split late
    obtain ⟨before, advances, own⟩ := parts past e later split
    exact before.late_ended advances own late
  · intro e member message handled
    obtain ⟨past, later, split⟩ := List.append_of_mem member
    obtain ⟨before, advances, _⟩ := parts past e later split
    obtain ⟨reply, read, verified, _, resolved⟩ := advances.resolves message handled
    refine ⟨reply, read, verified, ?_⟩
    intro p pending
    obtain ⟨gone, told, completed, late⟩ :=
      Registry.resolve_pending before.orderly.valid pending e.before.scene.now reply.response
    rw [← resolved] at gone told completed late
    exact ⟨gone, told, completed, late⟩

namespace Loopback

/-- The call is cancelled after its request was taken, and its reply comes too late. -/
def cancelling : List Act :=
  [.place call.name call.id call.request, .publish 0, .take 0, .cancel call.id.text, .go 0 0, .take 1, .go 1 0]

def cancelled : Relay :=
  requested.step (.cancel call.id.text)

/-- The request of the cancelled call is handled, and the reply to it is taken. -/
def overdue : Relay :=
  take { cancelled with
    scene := (cancelled.platform.start cancelled.scene request.encode).1
    stations := [⟨.requests, handled "requests"⟩, ⟨.replies, idle "replies"⟩] } 1

theorem cancelled_go : (cancelled.go 0 0).take 1 = overdue := by
  have station : cancelled.stations[0]? = some ⟨.requests, taken "requests" request.encode⟩ := by
    show requested.stations[0]? = _
    rw [requested_stations]
    rfl
  rw [go_fresh station (taken_inFlight ..) rfl (by decide +kernel), overdue,
    show cancelled.stations = _ from requested_stations]
  rfl

theorem late_cancelling : ((start Loopback.client Loopback.platform Loopback.consumers Registry.mix).after
    cancelling).desk.registry.stats.late = 1 := by
  have run : (start Loopback.client Loopback.platform Loopback.consumers Registry.mix).after cancelling =
      ((cancelled.go 0 0).take 1).go 1 0 := rfl
  have station : overdue.stations[1]? = some ⟨.replies, taken "replies" reply.encode⟩ := by decide +kernel
  rw [run, cancelled_go, go_fresh station (taken_inFlight ..) rfl (by decide +kernel)]
  decide +kernel

theorem separate : Separate Loopback.client Loopback.platform Loopback.consumers := by
  refine ⟨by decide, ?_⟩
  intro post member
  rcases List.mem_pair.mp member with rfl | rfl
  · exact ⟨fun _ => by decide, nofun⟩
  · exact ⟨nofun, fun _ => rfl⟩

theorem trusts : Loopback.client.signer.Trusts Loopback.platform.signer := by
  intro content token given
  obtain rfl := Option.some.inj given
  exact Signer.accepts_eq_true_iff.mpr ⟨[1], rfl, rfl⟩

theorem cancelling_undisturbed :
    ∀ e ∈ (start Loopback.client Loopback.platform Loopback.consumers Registry.mix).events cancelling,
      e.Undisturbed := by
  intro e member
  obtain rfl | rfl | rfl | rfl | rfl | rfl | rfl | none := by
    simpa only [cancelling, events, List.mem_cons] using member
  · exact nofun
  · trivial
  · trivial
  · trivial
  · trivial
  · trivial
  · trivial
  · cases none

end Loopback

theorem no_reply_overtakes_its_call_of_loopback :
    Separate Loopback.client Loopback.platform Loopback.consumers ∧
      Loopback.client.signer.Trusts Loopback.platform.signer ∧
      ((start Loopback.client Loopback.platform Loopback.consumers Registry.mix).after
        Loopback.cancelling).desk.registry.stats.late = 1 ∧
      NoOvertaking Loopback.client Loopback.platform
        ((start Loopback.client Loopback.platform Loopback.consumers Registry.mix).events Loopback.cancelling) :=
  ⟨Loopback.separate, Loopback.trusts, Loopback.late_cancelling,
    no_reply_overtakes_its_call Loopback.separate Loopback.trusts Loopback.cancelling Loopback.cancelling_undisturbed⟩

end Relay

end SoapRelay
