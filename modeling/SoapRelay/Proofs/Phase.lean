import SoapRelay.Proofs.Clock
import SoapRelay.Proofs.Serve
import SoapRelay.Proofs.Solo
import SoapRelay.Proofs.Waiting

/-!
# Where a single call stands

A single call goes through both sides while time jumps from timer to timer. Whenever nothing can happen
before time passes, its request is under way, has led to a reply or is a dead letter, and its caller waits
or has been told. Every timer keeps that, and so does the time between timers.
-/

namespace SoapRelay

/-! ### Timers -/

namespace Exchange

variable {y : Exchange} {t u : Nat}

def timers (y : Exchange) : List Nat :=
  y.scene.env.desk.waiters.map (·.until_) ++ (y.scene.env.desk.reaper?.map (·.next)).toList ++
    y.stations.flatMap fun t => t.worker.inFlight.filterMap (·.wakeAt?)

theorem mem_timers : u ∈ y.timers ↔ (∃ w ∈ y.scene.env.desk.waiters, w.until_ = u) ∨
    (∃ r, y.scene.env.desk.reaper? = some r ∧ r.next = u) ∨
      ∃ t ∈ y.stations, ∃ d ∈ t.worker.inFlight, d.wakeAt? = some u := by
  simp [timers]

theorem mem_timers_of_nextWake (found : y.nextWake = some t) : t ∈ y.timers := by
  have member := Clock.mem_of_earliest found
  rcases List.mem_append.mp member with desk | station
  · have first : y.scene.env.desk.nextWake = some t := Option.mem_toList.mp desk
    exact List.mem_append_left _ (Clock.mem_of_earliest first)
  · obtain ⟨s, inside, first⟩ := List.mem_filterMap.mp station
    exact List.mem_append_right _ (List.mem_flatMap.mpr ⟨s, inside, Clock.mem_of_earliest first⟩)

theorem exists_nextWake_le (member : u ∈ y.timers) : ∃ t, y.nextWake = some t ∧ t ≤ u := by
  have found : ∃ m ∈ y.scene.env.desk.nextWake.toList ++ y.stations.filterMap (·.worker.nextWake), m ≤ u := by
    rcases List.mem_append.mp member with desk | station
    · obtain ⟨m, first, early⟩ := Clock.exists_earliest_le desk
      exact ⟨m, List.mem_append_left _ (Option.mem_toList.mpr first), early⟩
    · obtain ⟨s, inside, here⟩ := List.mem_flatMap.mp station
      obtain ⟨m, first, early⟩ := Clock.exists_earliest_le here
      exact ⟨m, List.mem_append_right _ (List.mem_filterMap.mpr ⟨s, inside, first⟩), early⟩
  obtain ⟨m, inside, early⟩ := found
  obtain ⟨t, first, least⟩ := Clock.exists_earliest_le inside
  exact ⟨t, first, Nat.le_trans least early⟩

theorem nextWake_le (found : y.nextWake = some t) (member : u ∈ y.timers) : t ≤ u := by
  obtain ⟨m, first, early⟩ := exists_nextWake_le member
  obtain rfl := Option.some.inj (found.symm.trans first)
  exact early

end Exchange

namespace Solo

variable {x : Solo} {i last now t : Nat} {body? : Option String} {bus : Bus} {env : Traffic} {s s' : Scene Traffic}
  {d : Delivery CallWork} {desk : Desk} {stations : List Station} {y : Exchange}

/-! ### The call -/

/-- Both sides and their consumers before anything has happened. Nobody consumes the dead letters. -/
def opening (x : Solo) : Exchange where
  front := .create x.client .standard
  platform := x.platform
  scene := ⟨0, (Exchange.enlist .empty [(.requests, x.requests), (.replies, x.replies)]).1, false,
    { Traffic.start x.hash with desk := { (Traffic.start x.hash).desk with reaper? := x.reaper? } }⟩
  stations := (Exchange.enlist .empty [(.requests, x.requests), (.replies, x.replies)]).2

def called (x : Solo) : Exchange :=
  { x.opening with
    front := (x.opening.front.call x.opening.scene x.name x.request).1
    scene := (x.opening.front.call x.opening.scene x.name x.request).2 }

def later (x : Solo) (time : Nat) : Exchange := x.called.settle.sleep time

def waiter (x : Solo) : Waiter := ⟨x.name, ⟨x.id.text, 0, x.deadline⟩, x.deadline⟩

def pending (x : Solo) : PendingCall := ⟨0, 0, x.deadline⟩

/-- A topic whose subscriber has taken all there was. -/
def passed (n : Nat) : Topic := ⟨[], .held, n, n⟩

structure Topics (x : Solo) (bus : Bus) (requests replies deadLetters : Topic) : Prop where
  requests : bus.topic x.requests.topic = requests
  replies : bus.topic x.replies.topic = replies
  deadLetters : bus.topic x.requests.deadLetterTopic = deadLetters

structure Distinct (x : Solo) : Prop where
  replies : x.replies.topic ≠ x.requests.topic
  deadLetters : x.requests.deadLetterTopic ≠ x.requests.topic
  others : x.requests.deadLetterTopic ≠ x.replies.topic

theorem Apt.distinct (apt : x.Apt) : x.Distinct := by
  have topics := apt.topics
  simp only [List.nodup_cons, List.mem_cons, List.not_mem_nil, or_false, not_or] at topics
  obtain ⟨⟨first, second, _⟩, ⟨third, _⟩, _⟩ := topics
  exact ⟨Ne.symm first, Ne.symm second, Ne.symm third⟩

namespace Topics

variable {bus' : Bus} {requests replies deadLetters new : Topic}

theorem set_requests (topics : x.Topics bus requests replies deadLetters) (distinct : x.Distinct)
    (after : ∀ other, bus'.topic other = if other = x.requests.topic then new else bus.topic other) :
    x.Topics bus' new replies deadLetters := by
  refine ⟨?_, ?_, ?_⟩
  · rw [after, if_pos rfl]
  · rw [after, if_neg distinct.replies, topics.replies]
  · rw [after, if_neg distinct.deadLetters, topics.deadLetters]

theorem set_replies (topics : x.Topics bus requests replies deadLetters) (distinct : x.Distinct)
    (after : ∀ other, bus'.topic other = if other = x.replies.topic then new else bus.topic other) :
    x.Topics bus' requests new deadLetters := by
  refine ⟨?_, ?_, ?_⟩
  · rw [after, if_neg distinct.replies.symm, topics.requests]
  · rw [after, if_pos rfl]
  · rw [after, if_neg distinct.others, topics.deadLetters]

theorem set_deadLetters (topics : x.Topics bus requests replies deadLetters) (distinct : x.Distinct)
    (after : ∀ other, bus'.topic other = if other = x.requests.deadLetterTopic then new else bus.topic other) :
    x.Topics bus' requests replies new := by
  refine ⟨?_, ?_, ?_⟩
  · rw [after, if_neg distinct.deadLetters.symm, topics.requests]
  · rw [after, if_neg distinct.others.symm, topics.replies]
  · rw [after, if_pos rfl]

end Topics

theorem opening_spec (apt : x.Apt) : ∃ bus, x.Topics bus (passed 0) (passed 0) .fresh ∧
    x.opening.scene = ⟨0, bus, false,
      { Traffic.start x.hash with desk := { (Traffic.start x.hash).desk with reaper? := x.reaper? } }⟩ ∧
    x.opening.stations = [⟨.requests, .create x.requests⟩, ⟨.replies, .create x.replies⟩] := by
  have distinct := apt.distinct
  have empty : x.Topics .empty .fresh .fresh .fresh := ⟨rfl, rfl, rfl⟩
  obtain ⟨first, subscribed, after⟩ := Bus.exists_subscribe? (congrArg Topic.subscription empty.requests)
  rw [empty.requests] at after
  have topics : x.Topics first (passed 0) .fresh .fresh := empty.set_requests distinct after
  obtain ⟨second, subscribed', after⟩ := Bus.exists_subscribe? (congrArg Topic.subscription topics.replies)
  rw [topics.replies] at after
  have enlisted : Exchange.enlist .empty [(.requests, x.requests), (.replies, x.replies)] =
      (second, [⟨.requests, .create x.requests⟩, ⟨.replies, .create x.replies⟩]) := by
    simp only [Exchange.enlist, subscribed, subscribed']
  refine ⟨second, topics.set_replies distinct after, ?_, ?_⟩
  · rw [opening, enlisted]
  · rw [opening, enlisted]

theorem called_spec (apt : x.Apt) : ∃ bus env, x.called.scene = ⟨0, bus, false, env⟩ ∧
    x.Topics bus ((passed 0).accept x.line) (passed 0) .fresh ∧ env.calls = [] ∧
    env.desk.Waits x.waiter x.pending ∧
    x.called.stations = [⟨.requests, .create x.requests⟩, ⟨.replies, .create x.replies⟩] ∧
    x.called.front.client = x.client ∧ x.called.front.finished = [] ∧ x.called.front.inbound = [] := by
  have distinct := apt.distinct
  obtain ⟨first, before, scene, stations⟩ := opening_spec apt
  obtain ⟨token, made, _⟩ := signed_eq apt
  have empty := Registry.Shows.create Registry.standardShards x.hash
  have timely : Clock.after? 0 x.deadline = some x.deadline := by
    unfold Clock.after?
    rw [Nat.zero_add, if_pos apt.timely]
  have ready : x.client.Ready x.opening.scene x.id x.request := by
    rw [scene]
    refine ⟨?_, ?_, ?_, ?_⟩
    · rw [made]
      rfl
    · exact Option.isSome_iff_exists.mpr ⟨_, timely⟩
    · intro p pending
      have none : (x.id.text, p) ∈ (Registry.create Registry.standardShards x.hash).entries := pending
      rw [empty.entries] at none
      cases none
    · rw [apt.requests, before.requests]
      decide
  have shaped : x.opening.scene.env.desk.registry.Shaped := by
    rw [scene]
    exact empty.valid.toShaped
  obtain ⟨signed, deadline, bus, signs, told, topics, forwarded⟩ := Client.forward_ready shaped ready
  obtain rfl : x.signed = signed := Option.some.inj (made.symm.trans signs)
  rw [scene, apt.requests, before.requests] at topics
  rw [scene] at told
  obtain rfl : x.deadline = deadline := Option.some.inj (timely.symm.trans told)
  have call := Front.forward_accepted (f := { x.opening.front with inbound := [] }) forwarded x.name
  have made : x.called = { x.opening with
      front := (Front.forward { x.opening.front with inbound := [] } x.opening.scene x.name x.request).1
      scene := (Front.forward { x.opening.front with inbound := [] } x.opening.scene x.name x.request).2 } := rfl
  rw [made, call, scene]
  refine ⟨bus, _, rfl, before.set_requests distinct topics, rfl, ⟨rfl, rfl, ?_, rfl, rfl⟩, stations, rfl, rfl, rfl⟩
  exact empty.register 0 x.id x.deadline

/-! ### Where the call stands -/

def worker (x : Solo) (inFlight : List (Delivery CallWork)) (stats : ConsumerStats) : Worker CallWork :=
  ⟨x.requests, true, inFlight, 1, 0, stats⟩

def answered (x : Solo) : Worker CallWork := ⟨x.replies, true, [], 1, 0, ⟨1, 0, 0, 0⟩⟩

/-- No reply has come: the caller waits, or has been told a timeout at its deadline. -/
def Unanswered (x : Solo) (now : Nat) (desk : Desk) : Prop :=
  now < x.deadline ∧ desk.Waits x.waiter x.pending ∨
    x.deadline ≤ now ∧ desk.Told ⟨x.name, .timedOut, x.deadline⟩ 0 0

/-- The reply came in time and the caller was told so, or it came late. -/
def Answered (x : Solo) (last : Nat) (body : String) (desk : Desk) : Prop :=
  x.ends last < x.deadline ∧ desk.Told ⟨x.name, .reply body, x.ends last⟩ 1 0 ∨
    x.deadline < x.ends last ∧ desk.Told ⟨x.name, .timedOut, x.deadline⟩ 0 1

/-- Everything there is while nothing can happen before time passes. -/
inductive Phase (x : Solo) (last : Nat) (body? : Option String) (now : Nat) (bus : Bus) (env : Traffic) :
    List Station → Prop where
  | flying {i : Nat} {d : Delivery CallWork} (flies : x.Flies last now i d) (calls : env.calls = x.before (i + 1))
      (desk : x.Unanswered now env.desk) (topics : x.Topics bus (passed 1) (passed 0) .fresh) :
      Phase x last body? now bus env [⟨.requests, x.worker [d] ⟨0, i, 0, 0⟩⟩, ⟨.replies, .create x.replies⟩]
  | replied {body : String} (result : body? = some body) (arrived : x.ends last ≤ now)
      (desk : x.Answered last body env.desk) (topics : x.Topics bus (passed 1) (passed 1) .fresh) :
      Phase x last body? now bus env [⟨.requests, x.worker [] ⟨1, last, 0, 0⟩⟩, ⟨.replies, x.answered⟩]
  | deadLettered (result : body? = none) (arrived : x.ends last ≤ now) (desk : x.Unanswered now env.desk)
      (topics : x.Topics bus (passed 1) (passed 0) (Topic.fresh.accept x.line)) :
      Phase x last body? now bus env [⟨.requests, x.worker [] ⟨0, last, 1, 0⟩⟩, ⟨.replies, .create x.replies⟩]

structure Settled (x : Solo) (last : Nat) (body? : Option String) (now : Nat) (y : Exchange) : Prop where
  front : y.front = x.called.front
  platform : y.platform = x.platform
  running : y.scene.stopping = false
  past : y.scene.now ≤ now
  sweeps : ∀ r, y.scene.env.desk.reaper? = some r → now < r.next
  phase : x.Phase last body? now y.scene.bus y.scene.env y.stations

theorem Flies.wake (flies : x.Flies last now i d) :
    ∃ u, d.wakeAt? = some u ∧ now < u ∧ ∀ time, d.canGo time false = decide (u ≤ time) := by
  cases flies with
  | handling inside early => exact ⟨_, rfl, early, fun _ => rfl⟩
  | backingOff inside early => exact ⟨_, rfl, early, fun _ => rfl⟩

theorem Flies.later (flies : x.Flies last now i d) {time u : Nat} (timer : d.wakeAt? = some u) (early : time < u) :
    x.Flies last time i d := by
  cases flies with
  | handling inside _ =>
    obtain rfl := Option.some.inj timer
    exact .handling inside early
  | backingOff inside _ =>
    obtain rfl := Option.some.inj timer
    exact .backingOff inside early

theorem Flies.before_end (flies : x.Flies last now i d) : now < x.ends last := by
  cases flies with
  | handling inside early => exact Nat.lt_of_lt_of_le early (ends_le_ends inside)
  | backingOff inside early => exact Nat.lt_of_lt_of_le early (begins_le_ends inside)

theorem Unanswered.waiters (open_ : x.Unanswered now desk) : ∀ w ∈ desk.waiters, now < w.until_ := by
  rcases open_ with ⟨before, waits⟩ | ⟨_, told⟩
  · rw [waits.waiters]
    exact List.forall_mem_singleton.mpr before
  · rw [told.waiters]
    exact List.forall_mem_nil _

theorem Unanswered.idle (open_ : x.Unanswered now desk) (early : now ≤ t) (ahead : ∀ w ∈ desk.waiters, t < w.until_) :
    x.Unanswered t desk := by
  rcases open_ with ⟨before, waits⟩ | ⟨after, told⟩
  · refine Or.inl ⟨ahead x.waiter ?_, waits⟩
    rw [waits.waiters]
    exact List.mem_singleton_self _
  · exact Or.inr ⟨Nat.le_trans after early, told⟩

theorem Unanswered.wake (open_ : x.Unanswered now desk) (early : now ≤ t) (least : ∀ w ∈ desk.waiters, t ≤ w.until_) :
    x.Unanswered t (desk.wake t) := by
  rcases open_ with ⟨before, waits⟩ | ⟨after, told⟩
  · rcases Nat.lt_or_ge t x.deadline with still | due
    · exact Or.inl ⟨still, waits.wake_early still⟩
    · have timer : t ≤ x.deadline := by
        refine least x.waiter ?_
        rw [waits.waiters]
        exact List.mem_singleton_self _
      have same : t = x.deadline := Nat.le_antisymm timer due
      have told := waits.wake_due due
      rw [same] at told ⊢
      exact Or.inr ⟨Nat.le_refl _, told⟩
  · exact Or.inr ⟨Nat.le_trans after early, told.wake t⟩

theorem Unanswered.again (open_ : x.Unanswered now desk) : x.Unanswered now (desk.wake now) :=
  open_.wake (Nat.le_refl _) fun w waits => Nat.le_of_lt (open_.waiters w waits)

theorem waits_wake (waits : desk.Waits x.waiter x.pending) : x.Unanswered 0 (desk.wake 0) := by
  rcases Nat.eq_zero_or_pos x.deadline with zero | positive
  · have told : (desk.wake 0).Told ⟨x.name, .timedOut, 0⟩ 0 0 := waits.wake_due (Nat.le_of_eq zero)
    refine Or.inr ⟨Nat.le_of_eq zero, ?_⟩
    rw [zero]
    exact told
  · exact Or.inl ⟨positive, waits.wake_early positive⟩

/-- The reply is handled, and the caller looks at once. -/
theorem Unanswered.resolve (open_ : x.Unanswered now desk) (arrived : now = x.ends last) (apart : now ≠ x.deadline)
    (body : String) : x.Answered last body
      (Desk.wake now { desk with registry := (desk.registry.resolve now x.id.text body).2 }) := by
  rcases open_ with ⟨before, waits⟩ | ⟨after, told⟩
  · have left : Desk.Left { desk with registry := (desk.registry.resolve now x.id.text body).2 } x.waiter
        (.reply body) 1 0 := ⟨waits.waiters, waits.ended, waits.registry.resolve_pending now body⟩
    have told := left.wake now
    rw [arrived] at before told ⊢
    exact Or.inl ⟨before, told⟩
  · have dropped : Desk.Told { desk with registry := (desk.registry.resolve now x.id.text body).2 }
        ⟨x.name, .timedOut, x.deadline⟩ 0 1 := ⟨told.waiters, told.ended, told.registry.resolve_late now x.id.text body⟩
    exact Or.inr ⟨by omega, dropped.wake now⟩

theorem Answered.waiters {body : String} (answered : x.Answered last body desk) : desk.waiters = [] := by
  rcases answered with ⟨_, told⟩ | ⟨_, told⟩
  · exact told.waiters
  · exact told.waiters

theorem Answered.wake {body : String} (answered : x.Answered last body desk) : x.Answered last body (desk.wake t) := by
  rcases answered with ⟨early, told⟩ | ⟨late, told⟩
  · exact Or.inl ⟨early, told.wake t⟩
  · exact Or.inr ⟨late, told.wake t⟩

/-! ### A moment of activity -/

theorem worker_still {inFlight : List (Delivery CallWork)} {stats : ConsumerStats} {requests replies deadLetters : Topic}
    (running : s.stopping = false) (topics : x.Topics s.bus requests replies deadLetters) (none : requests.waiting = [])
    (waits : ∀ d ∈ inFlight, d.canGo s.now false = false) : (x.worker inFlight stats).Still s := by
  refine ⟨Worker.take?_nothing running ?_, ?_⟩
  · rw [show (x.worker inFlight stats).consumer.topic = x.requests.topic from rfl, topics.requests, none]
  · rw [running]
    exact waits

theorem replies_still {w : Worker CallWork} {requests replies deadLetters : Topic} (own : w.consumer = x.replies)
    (idle : w.inFlight = []) (running : s.stopping = false) (topics : x.Topics s.bus requests replies deadLetters)
    (none : replies.waiting = []) : w.Still s := by
  refine ⟨Worker.take?_nothing running ?_, ?_⟩
  · rw [own, topics.replies, none]
  · rw [idle]
    nofun

theorem Phase.still (phase : x.Phase last body? s.now s.bus env stations) (running : s.stopping = false) :
    ∀ t ∈ stations, t.worker.Still s := by
  have pair {a b : Station} (first : a.worker.Still s) (second : b.worker.Still s) :
      ∀ t ∈ [a, b], t.worker.Still s := List.forall_mem_cons.mpr ⟨first, List.forall_mem_singleton.mpr second⟩
  cases phase with
  | @flying _ d flies _ _ topics =>
    obtain ⟨u, _, early, goes⟩ := flies.wake
    have waits : ∀ d' ∈ [d], d'.canGo s.now false = false := by
      rw [List.forall_mem_singleton, goes]
      exact decide_eq_false (Nat.not_le_of_lt early)
    exact pair (worker_still running topics rfl waits) (replies_still rfl rfl running topics rfl)
  | replied _ _ _ topics =>
    exact pair (worker_still running topics rfl (List.forall_mem_nil _)) (replies_still rfl rfl running topics rfl)
  | deadLettered _ _ _ topics =>
    exact pair (worker_still running topics rfl (List.forall_mem_nil _)) (replies_still rfl rfl running topics rfl)

/-- Once the consumers have nothing to do the callers look again. -/
theorem settled_of_phase {fuel : Nat} (front : y.front = x.called.front) (platform : y.platform = x.platform)
    (running : y.scene.stopping = false) (here : y.scene.now = now)
    (phase : x.Phase last body? now y.scene.bus { y.scene.env with desk := y.scene.env.desk.wake now } y.stations) :
    x.Settled last body? now (y.work fuel).settleDesk := by
  subst here
  rw [Exchange.work_still (phase.still running)]
  exact ⟨front, platform, running, Nat.le_refl _, fun _ => Desk.wake_reaper y.scene.env.desk y.scene.now, phase⟩

/-- The worker on the requests has the delivery of the request, which it may just have taken, and the
delivery can go on. -/
structure Moment (x : Solo) (y : Exchange) (s : Scene Traffic) (i : Nat) (d : Delivery CallWork) : Prop where
  front : y.front = x.called.front
  platform : y.platform = x.platform
  running : y.scene.stopping = false
  beside : Beside y.scene s
  stations : ∃ w, y.stations = [⟨.requests, w⟩, ⟨.replies, .create x.replies⟩] ∧
    (w.take? y.scene = some (s, x.worker [d] ⟨0, i, 0, 0⟩) ∨
      w.take? y.scene = none ∧ s = y.scene ∧ x.worker [d] ⟨0, i, 0, 0⟩ = w)
  ready : d.canGo s.now s.stopping = true
  topics : x.Topics s.bus (passed 1) (passed 0) .fresh

theorem Moment.live (moment : x.Moment y s i d) : x.Live s := by
  refine ⟨moment.beside.stopping.trans moment.running, ?_, ?_⟩
  · rw [moment.topics.replies]
    exact fun same => Subscription.noConfusion same
  · rw [moment.topics.deadLetters]
    exact fun same => Subscription.noConfusion same

theorem Moment.work (turn : x.Moment y s i d) {n : ConsumerStats} {next : Turn CallWork}
    (went : Delivery.go x.platform.handler x.requests s ⟨0, i, 0, 0⟩ d = (s', n, next))
    (still : ((x.worker [d] ⟨0, i, 0, 0⟩).put [] n next).Still s') :
    y.work Worker.rounds = { y with
      scene := s'
      stations := [⟨.requests, (x.worker [d] ⟨0, i, 0, 0⟩).put [] n next⟩, ⟨.replies, .create x.replies⟩] }.work
        99999 := by
  obtain ⟨w, stations, begun⟩ := turn.stations
  have busy : Station.busy y.scene ⟨.requests, w⟩ = true := by
    unfold Station.busy
    rcases begun with took | ⟨_, rfl, rfl⟩
    · rw [took]
      rfl
    · simp [worker, turn.ready]
  have settled : w.settle (Role.handler y.front.client y.platform .requests) Worker.rounds y.scene =
      (s', (x.worker [d] ⟨0, i, 0, 0⟩).put [] n next) := by
    rw [turn.platform]
    exact Worker.settle_alone begun rfl turn.ready went still 99999
  exact Exchange.work_first stations busy settled 99999

def resolved (x : Solo) (body : String) (s : Scene Traffic) : Scene Traffic :=
  s.withEnv (s.env.withRegistry (s.env.desk.registry.resolve s.now x.id.text body).2)

theorem start_speaks {line body : String} (speaks : x.Speaks line body) (s : Scene Traffic) :
    (Replies.handler x.client.signer).start s line = (x.resolved body s, .done .processed) := by
  obtain ⟨reply, read, id, rfl, verified⟩ := speaks
  rw [Replies.start_verified s read verified, id]
  rfl

/-- The reply is taken, and ends the call or comes late. -/
theorem work_reply {line body : String} {stats : ConsumerStats} (client : y.front.client = x.client)
    (running : y.scene.stopping = false) (speaks : x.Speaks line body)
    (stations : y.stations = [⟨.requests, x.worker [] stats⟩, ⟨.replies, .create x.replies⟩]) (distinct : x.Distinct)
    (topics : x.Topics y.scene.bus (passed 1) ((passed 0).accept line) .fresh) :
    ∃ bus, x.Topics bus (passed 1) (passed 1) .fresh ∧ y.work 99999 = { y with
      scene := x.resolved body (y.scene.withBus bus)
      stations := [⟨.requests, x.worker [] stats⟩, ⟨.replies, x.answered⟩] }.work 99998 := by
  obtain ⟨bus, took, after⟩ := Worker.exists_take? CallWork (c := x.replies) running
    (congrArg Topic.subscription topics.replies) (congrArg Topic.waiting topics.replies)
  rw [topics.replies] at after
  have taken : x.Topics bus (passed 1) (passed 1) .fresh := topics.set_replies distinct after
  have started := start_speaks speaks (y.scene.withBus bus)
  have went : Delivery.go (Replies.handler x.client.signer) x.replies (y.scene.withBus bus) .zero
      (.fresh x.replies line) = (x.resolved body (y.scene.withBus bus), ⟨1, 0, 0, 0⟩, .ended .processed) := by
    have gone := Delivery.go_fresh (h := Replies.handler x.client.signer) (c := x.replies) (s := y.scene.withBus bus)
      (n := .zero) (d := .fresh x.replies line) rfl (congrArg Prod.snd started)
    exact gone.trans (congrArg (fun result => (result.1, _, _)) started)
  have idle : (x.worker [] stats).Still y.scene := worker_still running topics rfl (List.forall_mem_nil _)
  have busy : Station.busy y.scene ⟨.replies, .create x.replies⟩ = true := by
    unfold Station.busy
    rw [took]
    rfl
  have settled : (Worker.create x.replies).settle (Role.handler y.front.client y.platform .replies) Worker.rounds
      y.scene = (x.resolved body (y.scene.withBus bus), x.answered) := by
    rw [client]
    exact Worker.settle_alone (Or.inl took) rfl rfl went (replies_still rfl rfl running taken rfl) 99999
  exact ⟨bus, taken, Exchange.work_second stations idle busy settled 99998⟩

theorem Moment.settled (apt : x.Apt) (apart : body? ≠ none → x.ends last ≠ x.deadline) (moment : x.Moment y s i d)
    (open_ : x.Unanswered y.scene.now y.scene.env.desk)
    (turns : x.Turns last body? s (Delivery.go x.platform.handler x.requests s ⟨0, i, 0, 0⟩ d)) :
    x.Settled last body? y.scene.now (y.work Worker.rounds).settleDesk := by
  have distinct := apt.distinct
  have topics := moment.topics
  generalize went : Delivery.go x.platform.handler x.requests s ⟨0, i, 0, 0⟩ d = result at turns
  cases turns with
  | @going s' j next beside bus calls flies =>
    have all := moment.beside.trans beside
    have running := all.stopping.trans moment.running
    have phase : x.Phase last body? s'.now s'.bus { s'.env with desk := s'.env.desk.wake s'.now }
        [⟨.requests, x.worker [next] ⟨0, j, 0, 0⟩⟩, ⟨.replies, .create x.replies⟩] := by
      rw [← bus] at topics
      rw [all.desk, all.now]
      exact .flying (moment.beside.now ▸ flies) calls open_.again topics
    have still := phase.still running
    rw [moment.work went (still _ (List.mem_cons_self ..)), ← all.now]
    exact settled_of_phase moment.front moment.platform running rfl phase
  | @replied s' body line beside arrived result speaks after =>
    have all := moment.beside.trans beside
    have running := all.stopping.trans moment.running
    have now : y.scene.now = x.ends last := moment.beside.now.symm.trans arrived
    rw [topics.replies] at after
    have replied : x.Topics s'.bus (passed 1) ((passed 0).accept line) .fresh := topics.set_replies distinct after
    have first : (x.worker [] ⟨1, last, 0, 0⟩).Still s' := worker_still running replied rfl (List.forall_mem_nil _)
    have client : y.front.client = x.client := by
      obtain ⟨_, _, _, _, _, _, _, client, _⟩ := called_spec apt
      rw [moment.front, client]
    obtain ⟨bus, taken, worked⟩ := work_reply (y := { y with
      scene := s', stations := [⟨.requests, x.worker [] ⟨1, last, 0, 0⟩⟩, ⟨.replies, .create x.replies⟩] })
      client running speaks rfl distinct replied
    -- the caller looks only once the replies have been handled
    have desk : (x.resolved body (s'.withBus bus)).env.desk = { y.scene.env.desk with
        registry := (y.scene.env.desk.registry.resolve y.scene.now x.id.text body).2 } := by
      rw [← all.desk, ← all.now]
      rfl
    have answered := open_.resolve now (now ▸ apart (by rw [result]; exact Option.some_ne_none body)) body
    rw [← desk] at answered
    rw [(moment.work went first).trans worked]
    exact settled_of_phase moment.front moment.platform running all.now
      (.replied result (Nat.le_of_eq now.symm) answered taken)
  | @deadLettered s' beside arrived result after =>
    have all := moment.beside.trans beside
    have running := all.stopping.trans moment.running
    have phase : x.Phase last body? s'.now s'.bus { s'.env with desk := s'.env.desk.wake s'.now }
        [⟨.requests, x.worker [] ⟨0, last, 1, 0⟩⟩, ⟨.replies, .create x.replies⟩] := by
      have now : y.scene.now = x.ends last := moment.beside.now.symm.trans arrived
      rw [topics.deadLetters] at after
      rw [all.desk, all.now]
      exact .deadLettered result (Nat.le_of_eq now.symm) open_.again (topics.set_deadLetters distinct after)
    have still := phase.still running
    rw [moment.work went (still _ (List.mem_cons_self ..)), ← all.now]
    exact settled_of_phase moment.front moment.platform running rfl phase

/-! ### As time goes on -/

theorem Phase.waiters (phase : x.Phase last body? now bus env stations) : ∀ w ∈ env.desk.waiters, now < w.until_ := by
  cases phase with
  | flying _ _ open_ _ => exact open_.waiters
  | replied _ _ answered _ =>
    rw [answered.waiters]
    exact List.forall_mem_nil _
  | deadLettered _ _ open_ _ => exact open_.waiters

/-- The delivery of the request, while there is one. -/
structure Phase.Carries (x : Solo) (last now : Nat) (bus : Bus) (env : Traffic) (stations : List Station) (i : Nat)
    (d : Delivery CallWork) : Prop where
  flies : x.Flies last now i d
  calls : env.calls = x.before (i + 1)
  desk : x.Unanswered now env.desk
  topics : x.Topics bus (passed 1) (passed 0) .fresh
  stations : stations = [⟨.requests, x.worker [d] ⟨0, i, 0, 0⟩⟩, ⟨.replies, .create x.replies⟩]

theorem Phase.carries (phase : x.Phase last body? now bus env stations) {station : Station}
    (there : station ∈ stations) (inside : d ∈ station.worker.inFlight) :
    ∃ i, Phase.Carries x last now bus env stations i d := by
  cases phase with
  | flying flies calls desk topics =>
    rcases List.mem_pair.mp there with rfl | rfl
    · obtain rfl := List.mem_singleton.mp inside
      exact ⟨_, flies, calls, desk, topics, rfl⟩
    · cases inside
  | replied _ _ _ _ => rcases List.mem_pair.mp there with rfl | rfl <;> cases inside
  | deadLettered _ _ _ _ => rcases List.mem_pair.mp there with rfl | rfl <;> cases inside

/-- No timer is due while nothing can happen. -/
theorem Settled.live (settled : x.Settled last body? now y) (member : t ∈ y.timers) : now < t := by
  rcases Exchange.mem_timers.mp member with ⟨w, waits, rfl⟩ | ⟨r, reaps, rfl⟩ | ⟨station, there, d, inside, timer⟩
  · exact settled.phase.waiters w waits
  · exact settled.sweeps r reaps
  · obtain ⟨_, carries⟩ := settled.phase.carries there inside
    obtain ⟨u, first, early, _⟩ := carries.flies.wake
    obtain rfl := Option.some.inj (first.symm.trans timer)
    exact early

/-- Callers may look, and time may pass, as long as no delivery is due. -/
theorem Phase.later (phase : x.Phase last body? now bus env stations) (early : now ≤ t)
    (deliveries : ∀ s ∈ stations, ∀ d ∈ s.worker.inFlight, ∀ u, d.wakeAt? = some u → t < u)
    (open_ : x.Unanswered now env.desk → x.Unanswered t desk)
    (answered : ∀ body, x.Answered last body env.desk → x.Answered last body desk) :
    x.Phase last body? t bus { env with desk } stations := by
  cases phase with
  | @flying _ d flies calls waits topics =>
    obtain ⟨u, timer, _, _⟩ := flies.wake
    have ahead := deliveries _ (List.mem_cons_self ..) d (List.mem_singleton_self d) u timer
    exact .flying (flies.later timer ahead) calls (open_ waits) topics
  | replied result arrived told topics =>
    exact .replied result (Nat.le_trans arrived early) (answered _ told) topics
  | deadLettered result arrived waits topics =>
    exact .deadLettered result (Nat.le_trans arrived early) (open_ waits) topics

theorem Settled.idle (settled : x.Settled last body? now y) (early : now ≤ t) (ahead : ∀ u ∈ y.timers, t < u) :
    x.Settled last body? t y := by
  refine ⟨settled.front, settled.platform, settled.running, Nat.le_trans settled.past early, ?_,
    settled.phase.later early ?_ ?_ fun _ told => told⟩
  · intro r reaps
    exact ahead r.next (Exchange.mem_timers.mpr (Or.inr (Or.inl ⟨r, reaps, rfl⟩)))
  · intro s there d inside u timer
    exact ahead u (Exchange.mem_timers.mpr (Or.inr (Or.inr ⟨s, there, d, inside, timer⟩)))
  · intro open_
    refine open_.idle early ?_
    intro w waits
    exact ahead w.until_ (Exchange.mem_timers.mpr (Or.inl ⟨w, waits, rfl⟩))

/-- At the first timer whatever is due happens, and then nothing can. -/
theorem Settled.wake (apt : x.Apt) (closes : x.Closes last body?) (apart : body? ≠ none → x.ends last ≠ x.deadline)
    (settled : x.Settled last body? now y) (found : y.nextWake = some t) : x.Settled last body? t (y.wake t) := by
  have least : ∀ u ∈ y.timers, t ≤ u := fun u timer => Exchange.nextWake_le found timer
  have early : now ≤ t := Nat.le_of_lt (settled.live (Exchange.mem_timers_of_nextWake found))
  have wakes (open_ : x.Unanswered now y.scene.env.desk) : x.Unanswered t (y.scene.env.desk.wake t) := by
    refine open_.wake early ?_
    intro w waits
    exact least w.until_ (Exchange.mem_timers.mpr (Or.inl ⟨w, waits, rfl⟩))
  by_cases due : ∃ s ∈ y.stations, ∃ d ∈ s.worker.inFlight, d.wakeAt? = some t
  · -- the caller looks first, then the delivery goes on: a deadline at this very time comes before a reply
    obtain ⟨s, there, d, inside, timer⟩ := due
    obtain ⟨i, flies, calls, open_, topics, pair⟩ := settled.phase.carries there inside
    obtain ⟨u, first, _, goes⟩ := flies.wake
    obtain rfl := Option.some.inj (first.symm.trans timer)
    let z := Exchange.settleDesk { y with scene := { y.scene with now := u } }
    have untaken : (x.worker [d] ⟨0, i, 0, 0⟩).take? z.scene = none :=
      Worker.take?_nothing settled.running (congrArg Topic.waiting topics.requests)
    have ready : d.canGo z.scene.now z.scene.stopping = true := by
      rw [show z.scene.stopping = false from settled.running, goes]
      exact decide_eq_true (Nat.le_refl u)
    have moment : x.Moment z z.scene i d :=
      ⟨settled.front, settled.platform, settled.running, .refl _, ⟨_, pair, Or.inr ⟨untaken, rfl, rfl⟩⟩, ready, topics⟩
    exact moment.settled apt apart (wakes open_) (go_turns apt closes flies timer calls moment.live)
  · have deliveries : ∀ s ∈ y.stations, ∀ d ∈ s.worker.inFlight, ∀ u, d.wakeAt? = some u → t < u := by
      intro s there d inside u timer
      have first := least u (Exchange.mem_timers.mpr (Or.inr (Or.inr ⟨s, there, d, inside, timer⟩)))
      refine Nat.lt_of_le_of_ne first ?_
      rintro rfl
      exact due ⟨s, there, d, inside, timer⟩
    refine settled_of_phase settled.front settled.platform settled.running rfl ?_
    exact settled.phase.later early deliveries (fun open_ => (wakes open_).again) fun _ told => told.wake.wake

theorem settled_called (apt : x.Apt) (closes : x.Closes last body?)
    (apart : body? ≠ none → x.ends last ≠ x.deadline) : x.Settled last body? 0 x.called.settle := by
  obtain ⟨bus, env, scene, topics, calls, waits, stations, _⟩ := called_spec apt
  have distinct := apt.distinct
  let z := x.called.settleDesk
  have here : z.scene = ⟨0, bus, false, { env with desk := env.desk.wake 0 }⟩ := by
    unfold z Exchange.settleDesk
    rw [scene]
    rfl
  have topics : x.Topics z.scene.bus ((passed 0).accept x.line) (passed 0) .fresh := by rwa [here]
  have running : z.scene.stopping = false := by rw [here]
  obtain ⟨next, took, after⟩ := Worker.exists_take? CallWork (c := x.requests) running
    (congrArg Topic.subscription topics.requests) (congrArg Topic.waiting topics.requests)
  rw [topics.requests] at after
  have taken : x.Topics next (passed 1) (passed 0) .fresh := topics.set_requests distinct after
  have moment : x.Moment z (z.scene.withBus next) 0 (.fresh x.requests x.line) :=
    ⟨rfl, rfl, running, ⟨rfl, rfl, rfl⟩, ⟨_, stations, Or.inl took⟩, rfl, taken⟩
  have begins : x.Begins 0 (z.scene.withBus next) := by
    refine ⟨?_, ?_, moment.live⟩
    · rw [here]
      rfl
    · rw [here]
      exact calls
  have open_ : x.Unanswered z.scene.now z.scene.env.desk := by
    rw [here]
    exact waits_wake waits
  have settled := moment.settled apt apart open_ (go_fresh_turns apt closes begins)
  rw [here] at settled
  exact settled

theorem settled_later (apt : x.Apt) (closes : x.Closes last body?)
    (apart : body? ≠ none → x.ends last ≠ x.deadline) (time : Nat) : x.Settled last body? time (x.later time) := by
  have start := settled_called apt closes apart
  have zero : x.called.settle.scene.now = 0 := Nat.le_zero.mp start.past
  have passed : x.Settled last body? time
      (Clock.pass Exchange.nextWake Exchange.wake time 0 x.called.settle) := by
    refine Clock.pass_keeps (x.Settled last body?) ?_ ?_ ?_ start (Nat.zero_le time)
    · exact fun now y t settled found => settled.live (Exchange.mem_timers_of_nextWake found)
    · exact fun now y t settled found => settled.wake apt closes apart found
    · intro now y t settled early ahead
      refine settled.idle early ?_
      intro u timer
      obtain ⟨first, found, least⟩ := Exchange.exists_nextWake_le timer
      exact Nat.lt_of_lt_of_le (ahead first found) least
  unfold later Exchange.sleep
  rw [zero, Nat.zero_add]
  exact ⟨passed.front, passed.platform, passed.running, Nat.le_refl _, passed.sweeps, passed.phase⟩

end Solo

end SoapRelay
