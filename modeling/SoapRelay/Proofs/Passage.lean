import Mathlib.Data.List.Perm.Basic
import SoapRelay.Proofs.Attempts
import SoapRelay.Proofs.Bus
import SoapRelay.Proofs.Envelope
import SoapRelay.Proofs.Platform
import SoapRelay.Relay

/-!
# Ids on their way

Between the two sides an id travels in messages: one lane leads to the consumers of requests and another to
those of replies. A lane holds the messages that wait in its topic and those that its consumers have taken,
and what either side does to it is said by how often each id is in it.
-/

namespace SoapRelay

variable {client : Client} {platform : Platform} {s s' : Scene Traffic} {bus after : Bus} {stations : List Station}
  {t : Station} {w : Worker CallWork} {d : Delivery CallWork} {c : Consumer} {id : CallId} {message : String} {i k : Nat}

/-! ### Lanes -/

def Request.id? (message : String) : Option CallId :=
  (Request.decode message).toOption.map (·.id)

def Reply.id? (message : String) : Option CallId :=
  (Reply.decode message).toOption.map (·.id)

theorem Request.id?_eq_some {request : Request} (read : Request.decode message = .ok request) :
    Request.id? message = some request.id := by
  rw [Request.id?, read]
  rfl

theorem Reply.id?_eq_some {reply : Reply} (read : Reply.decode message = .ok reply) :
    Reply.id? message = some reply.id := by
  rw [Reply.id?, read]
  rfl

/-- How often an id is read, with the first message counted by itself. -/
theorem count_filterMap_cons (id? : String → Option CallId) (message : String) (rest : List String) (id : CallId) :
    ((message :: rest).filterMap id?).count id = (id? message).toList.count id + (rest.filterMap id?).count id := by
  rw [List.filterMap_cons]
  cases id? message with
  | none => exact (Nat.zero_add _).symm
  | some other => rw [Option.toList_some, ← List.count_append, List.singleton_append]

/-- A topic, the consumers that serve it, and how the ids of its messages are read. -/
structure Lane where
  topic : String
  role : Role
  id? : String → Option CallId

def Client.lane (c : Client) : Lane := ⟨c.requestsTopic, .requests, Request.id?⟩

def Platform.lane (p : Platform) : Lane := ⟨p.repliesTopic, .replies, Reply.id?⟩

namespace Lane

variable {l : Lane}

def waiting (l : Lane) (bus : Bus) : List CallId :=
  (bus.topic l.topic).waiting.filterMap l.id?

/-- The ids of the messages that a station is busy with. -/
def carried (l : Lane) (t : Station) : List CallId :=
  if t.role = l.role then (t.worker.inFlight.map (·.message)).filterMap l.id? else []

def load (l : Lane) (bus : Bus) (stations : List Station) : List CallId :=
  l.waiting bus ++ stations.flatMap l.carried

theorem count_load (l : Lane) (bus : Bus) (stations : List Station) (id : CallId) :
    (l.load bus stations).count id = (l.waiting bus).count id + (stations.flatMap l.carried).count id :=
  List.count_append

theorem waiting_gains {messages : List String} (gains : bus.Gains after l.topic messages) :
    l.waiting after = l.waiting bus ++ messages.filterMap l.id? := by
  rw [waiting, gains]
  exact List.filterMap_append

/-- Nothing comes to a lane whose topic is another one. -/
theorem waiting_publish? {topic : String} (accepted : bus.publish? topic message = some after)
    (other : l.topic ≠ topic) : l.waiting after = l.waiting bus := by
  have gains := Bus.gains_publish? accepted l.topic
  rw [if_neg other] at gains
  exact (waiting_gains gains).trans (List.append_nil _)

theorem count_flatMap_set (l : Lane) (here : stations[i]? = some t) (u : Station) (id : CallId) :
    ((stations.set i u).flatMap l.carried).count id + (l.carried t).count id =
      (stations.flatMap l.carried).count id + (l.carried u).count id := by
  obtain ⟨inside, rfl⟩ := List.getElem?_eq_some_iff.mp here
  have whole : stations.flatMap l.carried = (stations.take i).flatMap l.carried ++
      (l.carried stations[i] ++ (stations.drop (i + 1)).flatMap l.carried) := by
    rw [← List.flatMap_cons, ← List.flatMap_append, List.getElem_cons_drop, List.take_append_drop]
  rw [List.set_eq_take_append_cons_drop, if_pos inside, whole]
  simp only [List.flatMap_append, List.flatMap_cons, List.count_append]
  omega

/-- The others that a station is busy with, and the one that goes on. -/
theorem count_carried (found : t.worker.inFlight[k]? = some d) (here : t.role = l.role) (id : CallId) :
    (l.carried t).count id = (((t.worker.inFlight.eraseIdx k).map (·.message)).filterMap l.id?).count id +
      (l.id? d.message).toList.count id := by
  obtain ⟨inside, rfl⟩ := List.getElem?_eq_some_iff.mp found
  have split := ((List.getElem_cons_eraseIdx_perm inside).map (·.message)).filterMap l.id?
  rw [carried, if_pos here, ← split.count_eq, List.map_cons, count_filterMap_cons, Nat.add_comm]

theorem carried_foreign (other : t.role ≠ l.role) : l.carried t = [] :=
  if_neg other

/-- A delivery that goes on stays with its station. -/
theorem count_carried_going (found : t.worker.inFlight[k]? = some d) {next : Delivery CallWork}
    (same : next.message = d.message) (stats : ConsumerStats) (id : CallId) :
    (l.carried { t with worker := t.worker.put (t.worker.inFlight.eraseIdx k) stats (.going next) }).count id =
      (l.carried t).count id := by
  by_cases here : t.role = l.role
  · rw [count_carried found here, carried, if_pos here]
    show ((((t.worker.inFlight.eraseIdx k) ++ [next]).map (·.message)).filterMap l.id?).count id = _
    rw [List.map_append, List.filterMap_append, List.count_append, List.map_singleton, count_filterMap_cons, same]
    rfl
  · rw [carried_foreign here]
    exact congrArg (List.count id) (carried_foreign here)

/-- A delivery that has ended leaves its station. -/
theorem count_carried_ended (found : t.worker.inFlight[k]? = some d) (here : t.role = l.role) (stats : ConsumerStats)
    (how : Disposition) (id : CallId) :
    (l.carried { t with worker := t.worker.put (t.worker.inFlight.eraseIdx k) stats (.ended how) }).count id +
      (l.id? d.message).toList.count id = (l.carried t).count id := by
  have left : (t.worker.put (t.worker.inFlight.eraseIdx k) stats (.ended how)).inFlight =
      t.worker.inFlight.eraseIdx k := by
    cases how with
    | abandoned => rfl
    | processed | deadLettered | deadLetterFailed => rfl
  rw [count_carried found here, carried, if_pos here]
  dsimp only
  rw [left]

/-- A message that is taken passes from the topic of a lane to its station, or is not of that lane. -/
theorem count_take (serves : t.role = l.role → t.worker.consumer.topic = l.topic)
    (took : t.worker.take? s = some (s', w)) (id : CallId) :
    (l.waiting s'.bus).count id + (l.carried { t with worker := w }).count id ≤
      (l.waiting s.bus).count id + (l.carried t).count id := by
  cases Worker.takes_of_take? took with
  | nothing subscribed stopping =>
    refine Nat.add_le_add_right ?_ _
    show (((s.bus.unsubscribe t.worker.consumer.topic).topic l.topic).waiting.filterMap l.id?).count id ≤ _
    rw [Bus.unsubscribe, Bus.topic_put]
    split
    · exact Nat.zero_le _
    · exact Nat.le_refl _
  | @message m bus subscribed running room received =>
    obtain ⟨rest, _, waits, topics⟩ := Bus.receive?_cases received
    by_cases here : t.role = l.role
    · have own := serves here
      have one : (Delivery.fresh t.worker.consumer m : Delivery CallWork).message = m := rfl
      rw [carried, carried, if_pos here, if_pos here, waiting, waiting]
      dsimp only [Scene.withBus]
      rw [topics, if_pos own.symm, ← own, waits, List.map_append, List.filterMap_append, List.count_append,
        List.map_singleton, one, count_filterMap_cons, count_filterMap_cons, List.filterMap_nil, List.count_nil]
      dsimp only
      omega
    · rw [carried_foreign here, waiting, waiting]
      dsimp only [Scene.withBus]
      rw [topics]
      refine Nat.add_le_add ?_ (Nat.le_of_eq (congrArg (List.count id) (carried_foreign here)))
      split
      · rename_i same
        rw [same, waits]
        exact ((List.sublist_cons_self m rest).filterMap l.id?).count_le id
      · exact Nat.le_refl _

end Lane

namespace Worker

/-- Nothing comes to a topic when a message is taken, and what is taken has waited in the topic of the worker. -/
theorem take?_waiting {w' : Worker CallWork} (took : w.take? s = some (s', w')) : w'.consumer = w.consumer ∧
    (∀ topic, (s'.bus.topic topic).waiting <:+ (s.bus.topic topic).waiting) ∧
      ∀ d ∈ w'.inFlight, d ∈ w.inFlight ∨
        d.stage = .fresh ∧ d.message ∈ (s.bus.topic w.consumer.topic).waiting := by
  cases takes_of_take? took with
  | @message m bus subscribed running room received =>
    obtain ⟨rest, _, waits, topics⟩ := Bus.receive?_cases received
    refine ⟨rfl, fun topic => ?_, fun d member => ?_⟩
    · dsimp only [Scene.withBus]
      rw [topics]
      split
      · rename_i here
        rw [here, waits]
        exact List.suffix_cons m rest
      · exact List.suffix_rfl
    · rcases List.mem_append.mp member with old | new
      · exact Or.inl old
      · obtain rfl := List.mem_singleton.mp new
        refine Or.inr ⟨rfl, ?_⟩
        rw [waits]
        exact List.mem_cons_self ..
  | nothing subscribed stopping =>
    refine ⟨rfl, fun topic => ?_, fun d member => Or.inl member⟩
    dsimp only [Scene.withBus, Bus.unsubscribe]
    rw [Bus.topic_put]
    split
    · exact List.nil_suffix
    · exact List.suffix_rfl

end Worker

/-! ### What becomes of a request at one moment -/

namespace Platform

variable {p : Platform} {turn : Turn CallWork}

/-- How a moment at a request comes out for the bus: with a reply under its id, with the request passed on as a
dead letter, or with nothing. -/
inductive Turns (p : Platform) (c : Consumer) (before : Bus) (message : String) : Bus → Turn CallWork → Prop where
  | going {d : Delivery CallWork} (same : d.message = message)
      (working : ∀ work until_, d.stage = .handling work until_ → Request.id? message = some work.id) :
      Turns p c before message before (.going d)
  | replied {reply : Reply} {bus : Bus} (same : Request.id? message = some reply.id)
      (signed : p.signer.token? reply.unsigned = some reply.signature)
      (accepted : before.publish? p.repliesTopic reply.encode = some bus) :
      Turns p c before message bus (.ended .processed)
  | passedOn {bus : Bus} (accepted : before.publish? c.deadLetterTopic message = some bus) :
      Turns p c before message bus (.ended .deadLettered)
  | lost {how : Disposition} : Turns p c before message before (.ended how)

/-- Nothing has happened to the desk yet, nor to the bus. -/
structure Idle (before s : Scene Traffic) : Prop where
  bus : s.bus = before.bus
  desk : s.env.desk = before.env.desk

/-- There is no reply before a request is processed, and then there is one. -/
def turnsPlan (p : Platform) (c : Consumer) (before : Scene Traffic) (message : String) :
    Delivery.Plan Traffic CallWork where
  ready _ := Idle before
  working _ s w := Idle before s ∧ Request.id? message = some w.id
  failed _ := Idle before
  lost := Idle before
  ended how s := s.env.desk = before.env.desk ∧ p.Turns c before.bus message s.bus (.ended how)

theorem Concludes.turns {w : CallWork} {result : Scene Traffic × Outcome} (concludes : p.Concludes s' w result)
    (idle : Idle s s') (same : Request.id? message = some w.id) (c : Consumer) (i : Nat) :
    (turnsPlan p c s message).After i result.1 (.done result.2) := by
  cases concludes with
  | replied answered signed accepted =>
    rw [idle.bus] at accepted
    exact ⟨idle.desk, .replied same signed accepted⟩
  | unheard answered signed fails => exact Delivery.Plan.after_done fails ⟨idle.bus, idle.desk⟩ ⟨idle.bus, idle.desk⟩
  | failed fails => exact Delivery.Plan.after_done fails idle idle

theorem start_turns (p : Platform) (c : Consumer) (message : String) (i : Nat) (idle : Idle s s') :
    (turnsPlan p c s message).After i (p.start s' message).1 (p.start s' message).2 := by
  have begins := p.start_begins s' message
  generalize p.start s' message = result at begins
  cases begins with
  | refused fails => exact Delivery.Plan.after_done fails idle idle
  | waits screened => exact ⟨⟨idle.bus, idle.desk⟩, Request.id?_eq_some (screen_ok screened).1⟩
  | answered screened concludes =>
    exact concludes.turns ⟨idle.bus, idle.desk⟩ (Request.id?_eq_some (screen_ok screened).1) c i

theorem turns_obeyed (p : Platform) (c : Consumer) (s : Scene Traffic) (message : String) (limit : Nat) :
    (turnsPlan p c s message).Obeyed p.handler c message limit where
  start i _ idle := p.start_turns c message i idle
  finish i s' work working := (p.finish_concludes s' work).turns working.1 working.2 c i
  again _ _ idle _ _ := idle
  exhausted _ _ idle _ := idle
  abandoned _ _ idle _ := ⟨idle.desk, idle.bus ▸ .lost⟩
  passedOn _ _ idle accepted := ⟨idle.desk, .passedOn (idle.bus ▸ accepted)⟩
  refused _ idle _ := ⟨idle.desk, idle.bus ▸ .lost⟩

theorem go_turns (p : Platform) (c : Consumer) (s : Scene Traffic) (n : ConsumerStats)
    (working : ∀ work until_, d.stage = .handling work until_ → Request.id? d.message = some work.id) :
    (d.go p.handler c s n).1.env.desk = s.env.desk ∧
      p.Turns c s.bus d.message (d.go p.handler c s n).1.bus (d.go p.handler c s n).2.2 := by
  have idle : Idle s s := ⟨rfl, rfl⟩
  have meets : (turnsPlan p c s d.message).Meets d.message d.backoff.limit s d := by
    refine ⟨rfl, rfl, ?_⟩
    cases stage : d.stage with
    | fresh => exact idle
    | handling work until_ => exact ⟨idle, working work until_ stage⟩
    | backingOff until_ => exact idle
  have comes := (p.turns_obeyed c s d.message d.backoff.limit).go (n := n) meets
  cases turn : (d.go p.handler c s n).2.2 with
  | ended how => exact comes.ended how turn
  | going next =>
    obtain ⟨waits, same, _, stage⟩ := comes.going next turn
    cases state : next.stage with
    | fresh => exact absurd state waits
    | handling work until_ =>
      rw [state] at stage
      obtain ⟨still, read⟩ := stage
      refine ⟨still.desk, still.bus ▸ .going same ?_⟩
      intro other until' handling
      obtain ⟨rfl, _⟩ := Stage.handling.inj (state.symm.trans handling)
      exact read
    | backingOff until_ =>
      rw [state] at stage
      refine ⟨stage.desk, stage.bus ▸ .going same ?_⟩
      intro work until' handling
      cases state.symm.trans handling

end Platform

end SoapRelay
