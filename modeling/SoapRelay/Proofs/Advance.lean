import SoapRelay.Proofs.Departure
import SoapRelay.Proofs.Provenance
import SoapRelay.Proofs.Signed

/-!
# What one act does to the ids on their way

Whoever acts, an id goes on by one stretch at most: its call is registered, its request is handled and a reply
posted, or its reply is handled. An act that ends a call without a reply is one of a few.
-/

namespace SoapRelay

/-! ### Sides that are kept apart -/

/-- A consumer of requests or of replies that consumes the topic for them. No request is passed on to where
requests or replies are taken from. -/
structure Suits (client : Client) (platform : Platform) (role : Role) (c : Consumer) : Prop where
  requests : role = .requests → c.topic = client.requestsTopic ∧
    c.deadLetterTopic ≠ client.requestsTopic ∧ c.deadLetterTopic ≠ platform.repliesTopic
  replies : role = .replies → c.topic = platform.repliesTopic

structure Separate (client : Client) (platform : Platform) (consumers : List (Role × Consumer)) : Prop where
  topics : client.requestsTopic ≠ platform.repliesTopic
  consumers : ∀ post ∈ consumers, Suits client platform post.1 post.2

/-- A message that is a reply with a proper signature. -/
def Genuine (signer : Signer) (message : String) : Prop :=
  ∃ reply, Reply.decode message = .ok reply ∧ signer.verify reply = true

/-- What is known of a station: the work that a request waits for is for that request, and everything else that
was taken is yet to be handled. -/
structure Station.Orderly (client : Client) (platform : Platform) (t : Station) : Prop where
  suits : Suits client platform t.role t.worker.consumer
  working : t.role = .requests → ∀ d ∈ t.worker.inFlight, ∀ work until_, d.stage = .handling work until_ →
    Request.id? d.message = some work.id
  fresh : t.role ≠ .requests → ∀ d ∈ t.worker.inFlight, d.stage = .fresh
  genuine : t.role = .replies → ∀ d ∈ t.worker.inFlight, Genuine client.signer d.message

namespace Station.Orderly

variable {client : Client} {platform : Platform} {s s' : Scene Traffic} {t : Station} {w : Worker CallWork}

theorem take (orderly : t.Orderly client platform)
    (replies : ∀ m ∈ (s.bus.topic platform.repliesTopic).waiting, Genuine client.signer m)
    (took : t.worker.take? s = some (s', w)) : Station.Orderly client platform { t with worker := w } := by
  obtain ⟨own, _, taken⟩ := Worker.take?_waiting took
  refine ⟨own ▸ orderly.suits, ?_, ?_, ?_⟩
  · intro role d member work until_ stage
    rcases taken d member with old | ⟨fresh, _⟩
    · exact orderly.working role d old work until_ stage
    · cases fresh.symm.trans stage
  · intro role d member
    rcases taken d member with old | ⟨fresh, _⟩
    · exact orderly.fresh role d old
    · exact fresh
  · intro role d member
    rcases taken d member with old | ⟨_, waits⟩
    · exact orderly.genuine role d old
    · rw [orderly.suits.replies role] at waits
      exact replies d.message waits

/-- A delivery that goes on is known to be as it should. -/
theorem put (orderly : t.Orderly client platform) (others : List (Delivery CallWork)) (stats : ConsumerStats)
    {turn : Turn CallWork} (fewer : ∀ d ∈ others, d ∈ t.worker.inFlight)
    (going : ∀ d, turn = .going d → t.role = .requests ∧
      ∀ work until_, d.stage = .handling work until_ → Request.id? d.message = some work.id) :
    Station.Orderly client platform { t with worker := t.worker.put others stats turn } := by
  refine ⟨(t.worker.put_fixed others stats turn).1 ▸ orderly.suits, ?_, ?_, ?_⟩
  · intro role d member
    rcases Worker.mem_put member with old | turned
    · exact orderly.working role d (fewer d old)
    · exact (going d turned).2
  · intro role d member
    rcases Worker.mem_put member with old | turned
    · exact orderly.fresh role d (fewer d old)
    · exact absurd (going d turned).1 role
  · intro role d member
    rcases Worker.mem_put member with old | turned
    · exact orderly.genuine role d (fewer d old)
    · cases role.symm.trans (going d turned).1

end Station.Orderly

/-- What comes of a request: the reply that is posted, if any, and nothing on the lane of requests. -/
theorem Platform.Turns.flow {client : Client} {p : Platform} {t : Station} {d : Delivery CallWork} {k : Nat}
    {bus after : Bus} {turn : Turn CallWork} (turns : p.Turns t.worker.consumer bus d.message after turn)
    (apart : client.requestsTopic ≠ p.repliesTopic) (trusts : client.signer.Trusts p.signer)
    (suits : Suits client p t.role t.worker.consumer) (role : t.role = .requests)
    (found : t.worker.inFlight[k]? = some d) (stats : ConsumerStats) :
    ∃ posted, bus.Gains after p.repliesTopic posted ∧ (∀ m ∈ posted, Genuine client.signer m) ∧
      client.lane.waiting after = client.lane.waiting bus ∧ ∀ id,
        (client.lane.carried { t with worker := t.worker.put (t.worker.inFlight.eraseIdx k) stats turn }).count id +
          (posted.filterMap Reply.id?).count id ≤ (client.lane.carried t).count id := by
  cases turns with
  | going same working =>
    exact ⟨[], .refl .., nofun, rfl, fun id => Nat.le_of_eq (Lane.count_carried_going found same stats id)⟩
  | @replied reply _ same signed accepted =>
    have gains := Bus.gains_publish? accepted p.repliesTopic
    rw [if_pos rfl] at gains
    have read : Reply.decode reply.encode = .ok reply := Reply.decode_encode (Signer.separator_not_mem_token signed)
    refine ⟨_, gains, ?_, Lane.waiting_publish? accepted apart, fun id => ?_⟩
    · intro m member
      obtain rfl := List.mem_singleton.mp member
      exact ⟨reply, read, trusts _ _ signed⟩
    · have ended := Lane.count_carried_ended (l := client.lane) found role stats .processed id
      rw [← ended, count_filterMap_cons, Reply.id?_eq_some read, show client.lane.id? d.message = some reply.id from same]
      exact Nat.le_refl _
  | passedOn accepted =>
    have gains := Bus.gains_publish? accepted p.repliesTopic
    rw [if_neg (suits.requests role).2.2.symm] at gains
    refine ⟨[], gains, nofun, Lane.waiting_publish? accepted (suits.requests role).2.1.symm, fun id => ?_⟩
    exact Nat.le_of_add_right_le (Nat.le_of_eq (Lane.count_carried_ended found role stats .deadLettered id))
  | @lost how =>
    refine ⟨[], .refl .., nofun, rfl, fun id => ?_⟩
    exact Nat.le_of_add_right_le (Nat.le_of_eq (Lane.count_carried_ended found role stats how id))

namespace Relay

/-- One act, with the relay before and after it. -/
structure Event where
  before : Relay
  act : Act
  after : Relay

def events (x : Relay) : List Act → List Event
  | [] => []
  | act :: rest => ⟨x, act, x.step act⟩ :: (x.step act).events rest

/-- Why a call ends without a reply: it times out, or it is cancelled. -/
inductive Unanswered (x : Relay) (id : CallId) (p : PendingCall) : Act → Prop where
  | swept (due : p.deadline ≤ x.scene.now) : Unanswered x id p .sweep
  | timedOut {w : Waiter} (due : w.until_ ≤ x.scene.now) (own : p.serial = w.ticket.serial) :
      Unanswered x id p (.look w)
  | left : Unanswered x id p (.leave p.serial)
  | withdrawn {i : Nat} {name : String} {placed : Client.Placed} (found : x.placed[i]? = some (name, placed))
      (own : p.serial = placed.ticket.serial) : Unanswered x id p (.withdraw i)
  | refused {i : Nat} {name : String} {placed : Client.Placed} (found : x.placed[i]? = some (name, placed))
      (own : p.serial = placed.ticket.serial)
      (closed : x.scene.bus.publish? x.client.requestsTopic placed.request.encode = none) :
      Unanswered x id p (.publish i)
  | cancelled : Unanswered x id p (.cancel id.text)

namespace Event

/-- The id that a call is registered under. -/
def registered (e : Event) : List CallId :=
  match e.act with
  | .place _ id _ =>
    if !e.before.desk.registry.contains id.text && e.after.desk.registry.contains id.text then [id] else []
  | _ => []

def posted (topic : String) (e : Event) : List String :=
  e.before.scene.bus.added e.after.scene.bus topic

/-- The message that a consumer of replies handles. -/
def handled (e : Event) : List String :=
  match e.act with
  | .go i k =>
    match e.before.stations[i]? with
    | some t => if t.role = .replies then (t.worker.inFlight[k]?.map (·.message)).toList else []
    | none => []
  | _ => []

/-- A call that was pending is not any more, and got no reply. -/
def Ends (e : Event) (id : CallId) : Prop :=
  ∃ p, e.before.desk.registry.find? id.text = some p ∧ e.after.desk.registry.find? id.text = none ∧
    e.before.Unanswered id p e.act

/-- Calls have ids of their own, and nobody else publishes where the two sides do. -/
def Undisturbed (e : Event) : Prop :=
  match e.act with
  | .place _ id _ => ∀ c ∈ e.before.made, c.id ≠ id
  | .accept topic _ => topic ≠ e.before.client.requestsTopic ∧ topic ≠ e.before.platform.repliesTopic
  | _ => True

end Event

/-! ### What one act does -/

/-- The ids of requests that are yet to be handled, from the moment their calls are registered. -/
def outgoing (client : Client) (x : Relay) : List CallId :=
  x.placed.map (·.2.request.id) ++ client.lane.load x.scene.bus x.stations

def incoming (platform : Platform) (x : Relay) : List CallId :=
  platform.lane.load x.scene.bus x.stations

structure Orderly (client : Client) (platform : Platform) (x : Relay) : Prop where
  sides : x.client = client ∧ x.platform = platform
  valid : x.desk.registry.Valid
  placed : ∀ p ∈ x.placed, Request.id? p.2.request.encode = some p.2.request.id
  replies : ∀ m ∈ (x.scene.bus.topic platform.repliesTopic).waiting, Genuine client.signer m
  stations : ∀ t ∈ x.stations, t.Orderly client platform

/-- How an act brings ids further on their way, and what it does to pending calls. -/
structure Advances (client : Client) (platform : Platform) (e : Event) : Prop where
  orderly : Orderly client platform e.after
  made : ∀ c ∈ e.before.made, c ∈ e.after.made
  named : ∀ id ∈ e.registered, ∃ c ∈ e.after.made, c.id = id
  outgoing : ∀ id, (e.after.outgoing client).count id + ((e.posted platform.repliesTopic).filterMap Reply.id?).count id ≤
    (e.before.outgoing client).count id + e.registered.count id
  incoming : ∀ id, (e.after.incoming platform).count id + (e.handled.filterMap Reply.id?).count id ≤
    (e.before.incoming platform).count id + ((e.posted platform.repliesTopic).filterMap Reply.id?).count id
  genuine : ∀ m ∈ e.posted platform.repliesTopic, Genuine client.signer m
  stays : ∀ id p, e.before.desk.registry.find? id.text = some p → e.after.desk.registry.find? id.text = some p ∨
    e.Ends id ∨ id ∈ e.handled.filterMap Reply.id?
  late : e.after.desk.registry.stats.late ≠ e.before.desk.registry.stats.late → e.handled ≠ []
  resolves : ∀ m ∈ e.handled, ∃ reply, Reply.decode m = .ok reply ∧ client.signer.verify reply = true ∧
    e.handled = [m] ∧ e.after.desk.registry =
      (e.before.desk.registry.resolve e.before.scene.now reply.id.text reply.response).2

section

variable {client : Client} {platform : Platform} {x y : Relay} {act : Act} {cause : String × PendingCall → Prop}

/-- Nothing happens on the bus or at the stations, and no call is placed. -/
structure Still (x y : Relay) : Prop where
  sides : y.client = x.client ∧ y.platform = x.platform
  bus : y.scene.bus = x.scene.bus
  stations : y.stations = x.stations
  placed : y.placed.Sublist x.placed
  made : ∀ c ∈ x.made, c ∈ y.made

/-- Calls that are pending end for a cause, if they do. -/
theorem stays_of_drops (valid : x.desk.registry.Valid) (drops : x.desk.registry.Drops y.desk.registry cause)
    (causes : ∀ id p, cause (id.text, p) → x.Unanswered id p act) (id : CallId) (p : PendingCall)
    (pending : x.desk.registry.find? id.text = some p) :
    y.desk.registry.find? id.text = some p ∨ (⟨x, act, y⟩ : Event).Ends id ∨
      id ∈ (⟨x, act, y⟩ : Event).handled.filterMap Reply.id? := by
  rcases drops.stays_or_goes valid pending with stays | ⟨gone, because⟩
  · exact Or.inl stays
  · exact Or.inr (Or.inl ⟨p, pending, gone, causes id p because⟩)

theorem Still.advances (still : Still x y) (orderly : Orderly client platform x)
    (drops : x.desk.registry.Drops y.desk.registry cause)
    (causes : ∀ id p, cause (id.text, p) → x.Unanswered id p act)
    (named : ∀ id ∈ (⟨x, act, y⟩ : Event).registered, ∃ c ∈ y.made, c.id = id)
    (idle : (⟨x, act, y⟩ : Event).handled = []) : Advances client platform ⟨x, act, y⟩ where
  orderly := by
    refine ⟨⟨still.sides.1.trans orderly.sides.1, still.sides.2.trans orderly.sides.2⟩, drops.lessens.valid, ?_, ?_, ?_⟩
    · exact fun p member => orderly.placed p (still.placed.subset member)
    · rw [still.bus]
      exact orderly.replies
    · rw [still.stations]
      exact orderly.stations
  made := still.made
  named := named
  outgoing id := by
    have none : (⟨x, act, y⟩ : Event).posted platform.repliesTopic = [] := by
      rw [Event.posted, still.bus]
      exact (Bus.Gains.refl x.scene.bus platform.repliesTopic).added_eq
    have fewer := (still.placed.map fun p => p.2.request.id).count_le id
    rw [none, Relay.outgoing, Relay.outgoing, List.count_append, List.count_append, still.bus, still.stations]
    simp only [List.filterMap_nil, List.count_nil]
    omega
  incoming id := by
    rw [idle, Relay.incoming, Relay.incoming, still.bus, still.stations]
    exact Nat.le_add_right _ _
  genuine m member := by
    rw [Event.posted, still.bus, (Bus.Gains.refl x.scene.bus platform.repliesTopic).added_eq] at member
    cases member
  stays := stays_of_drops orderly.valid drops causes
  late changed := absurd drops.late changed
  resolves m member := by
    rw [idle] at member
    cases member

theorem Still.refl (x : Relay) : Still x x :=
  ⟨⟨rfl, rfl⟩, rfl, rfl, .refl _, fun _ member => member⟩

theorem nothing_advances (orderly : Orderly client platform x) (named : (⟨x, act, x⟩ : Event).registered = [])
    (idle : (⟨x, act, x⟩ : Event).handled = []) : Advances client platform ⟨x, act, x⟩ := by
  refine (Still.refl x).advances orderly (.refl orderly.valid fun _ => False) nofun ?_ idle
  rw [named]
  exact nofun

/-! #### Callers -/

theorem look_advances (orderly : Orderly client platform x) (w : Waiter) :
    Advances client platform ⟨x, .look w, x.look w⟩ := by
  have drops : x.desk.registry.Drops (x.look w).desk.registry fun e =>
      w.until_ ≤ x.scene.now ∧ e.2.serial = w.ticket.serial := by
    have drops := Registry.await_drops orderly.valid w.ticket w.until_ x.scene.now
    unfold look
    split
    · unfold Desk.look
      dsimp only
      split
      · rename_i answer
        rw [answer] at drops
        exact drops
      · rename_i answer
        rw [answer] at drops
        exact drops
    · exact .refl orderly.valid _
  have still : Still x (x.look w) := by
    unfold look
    split
    · exact ⟨⟨rfl, rfl⟩, rfl, rfl, .refl _, fun _ member => member⟩
    · exact ⟨⟨rfl, rfl⟩, rfl, rfl, .refl _, fun _ member => member⟩
  exact still.advances orderly drops (fun _ _ due => .timedOut due.1 due.2) nofun rfl

theorem leave_advances (orderly : Orderly client platform x) (serial : Nat) :
    Advances client platform ⟨x, .leave serial, x.leave serial⟩ := by
  have drops : x.desk.registry.Drops (x.leave serial).desk.registry (·.2.serial = serial) := by
    unfold leave Desk.abandon?
    cases found : x.desk.waiters.find? (·.ticket.serial == serial) with
    | none => exact .refl orderly.valid _
    | some w =>
      have own := List.find?_some found
      simp only [beq_iff_eq] at own
      have drops := Registry.release_drops orderly.valid w.ticket
      rw [own] at drops
      exact drops
  have still : Still x (x.leave serial) := by
    unfold leave
    split
    · exact ⟨⟨rfl, rfl⟩, rfl, rfl, .refl _, fun _ member => member⟩
    · exact ⟨⟨rfl, rfl⟩, rfl, rfl, .refl _, fun _ member => member⟩
  refine still.advances orderly drops ?_ nofun rfl
  rintro id p rfl
  exact .left

/-- A call that is placed is given up. -/
theorem release_advances (orderly : Orderly client platform x) {i : Nat} {placed : Client.Placed}
    (causes : ∀ (id : CallId) (p : PendingCall), p.serial = placed.ticket.serial → x.Unanswered id p act)
    (named : ∀ y : Relay, (⟨x, act, y⟩ : Event).registered = []) (idle : ∀ y : Relay, (⟨x, act, y⟩ : Event).handled = []) :
    Advances client platform ⟨x, act,
      { x with placed := x.placed.eraseIdx i }.withRegistry (x.desk.registry.release placed.ticket)⟩ := by
  refine Still.advances ⟨⟨rfl, rfl⟩, rfl, rfl, List.eraseIdx_sublist .., fun _ member => member⟩ orderly
    (Registry.release_drops orderly.valid placed.ticket) causes ?_ (idle _)
  rw [named]
  exact nofun

theorem withdraw_advances (orderly : Orderly client platform x) (i : Nat) :
    Advances client platform ⟨x, .withdraw i, x.withdraw i⟩ := by
  unfold withdraw
  split
  · rename_i name placed found
    exact release_advances orderly (fun _ _ own => .withdrawn found own) (fun _ => rfl) fun _ => rfl
  · exact nothing_advances orderly rfl rfl

theorem desk_advances (orderly : Orderly client platform x) {desk : Desk}
    (drops : x.desk.registry.Drops desk.registry cause)
    (causes : ∀ id p, cause (id.text, p) → x.Unanswered id p act)
    (named : (⟨x, act, x.withDesk desk⟩ : Event).registered = [])
    (idle : (⟨x, act, x.withDesk desk⟩ : Event).handled = []) : Advances client platform ⟨x, act, x.withDesk desk⟩ := by
  have still : Still x (x.withDesk desk) := ⟨⟨rfl, rfl⟩, rfl, rfl, .refl _, fun _ member => member⟩
  refine still.advances orderly drops causes ?_ idle
  rw [named]
  exact nofun

theorem registered_only {name : String} {id other : CallId} {request : ForwardRequest}
    (member : other ∈ (⟨x, .place name id request, y⟩ : Event).registered) : other = id := by
  dsimp only [Event.registered] at member
  split at member
  · exact List.mem_singleton.mp member
  · cases member

theorem registered_new {name : String} {id : CallId} {request : ForwardRequest} {p : PendingCall}
    (new : x.desk.registry.find? id.text = none) (found : y.desk.registry.find? id.text = some p) :
    (⟨x, .place name id request, y⟩ : Event).registered = [id] := by
  refine if_pos ?_
  rw [Registry.contains, Registry.contains, new, found]
  rfl

/-- A call is registered, and its request is yet to be published. -/
theorem enters_advances (orderly : Orderly client platform x) {name : String} {id : CallId} {request : ForwardRequest}
    {s : Scene Traffic} {p : Client.Placed} {call : PendingCall} (bus : s.bus = x.scene.bus)
    (new : x.desk.registry.find? id.text = none)
    (enters : x.desk.registry.Enters s.env.desk.registry (id.text, call))
    (late : s.env.desk.registry.stats.late = x.desk.registry.stats.late) (same : p.request.id = id)
    (read : Request.id? p.request.encode = some id) :
    Advances client platform ⟨x, .place name id request, { x with
      scene := s
      made := x.made ++ [⟨name, id, request, some p.ticket.serial⟩]
      placed := x.placed ++ [(name, p)] }⟩ := by
  have valid := enters.valid orderly.valid
  have found : s.env.desk.registry.find? id.text = some call :=
    (Registry.find?_eq_some_iff valid.toShaped).mpr (enters.mem_entries.mpr (Or.inl rfl))
  have none : ∀ topic, x.scene.bus.added s.bus topic = [] := by
    intro topic
    rw [bus]
    exact (Bus.Gains.refl x.scene.bus topic).added_eq
  constructor
  case orderly =>
    refine ⟨orderly.sides, valid, ?_, ?_, orderly.stations⟩
    · intro q member
      rcases List.mem_append.mp member with old | last
      · exact orderly.placed q old
      · obtain rfl := List.mem_singleton.mp last
        rw [same]
        exact read
    · dsimp only
      rw [bus]
      exact orderly.replies
  case made => exact fun _ member => List.mem_append_left _ member
  case named =>
    intro other member
    exact ⟨_, List.mem_append_right _ (List.mem_singleton_self _), (registered_only member).symm⟩
  case outgoing =>
    intro other
    have registered : ∀ y : Relay, y.scene = s → (⟨x, .place name id request, y⟩ : Event).registered = [id] := by
      rintro y rfl
      exact registered_new new found
    rw [registered _ rfl]
    dsimp only [Event.posted, Relay.outgoing]
    rw [none, bus, List.map_append, List.map_singleton, same]
    simp only [List.count_append, List.filterMap_nil, List.count_nil]
    omega
  case incoming =>
    intro other
    dsimp only [Relay.incoming]
    rw [bus]
    exact Nat.le_add_right _ _
  case genuine =>
    intro m member
    dsimp only [Event.posted] at member
    rw [none] at member
    cases member
  case stays =>
    intro other q pending
    have before := (Registry.find?_eq_some_iff orderly.valid.toShaped).mp pending
    exact Or.inl ((Registry.find?_eq_some_iff valid.toShaped).mpr (enters.mem_entries.mpr (Or.inr before)))
  case late => exact fun changed => absurd late changed
  case resolves => exact nofun

theorem place_advances (orderly : Orderly client platform x) (name : String) (id : CallId) (request : ForwardRequest) :
    Advances client platform ⟨x, .place name id request, x.place name id request⟩ := by
  have registers : Client.Registers x.scene id (x.client.place x.scene id request) :=
    x.client.place_registers id request orderly.valid
  have bus := x.client.place_bus x.scene id request
  unfold place
  generalize x.client.place x.scene id request = result at registers bus
  cases registers with
  | refused drops =>
    refine Still.advances ⟨⟨rfl, rfl⟩, bus, rfl, .refl _, fun _ member => List.mem_append_left _ member⟩ orderly drops
      nofun ?_ rfl
    intro other member
    exact ⟨_, List.mem_append_right _ (List.mem_singleton_self _), (registered_only member).symm⟩
  | placed new enters late same read => exact enters_advances orderly bus new enters late same read

/-- A message is published where no replies are expected, and the call of a request is not placed any more. -/
structure Publishes (client : Client) (platform : Platform) (x y : Relay) (topic message : String) : Prop where
  sides : y.client = x.client ∧ y.platform = x.platform
  accepted : x.scene.bus.publish? topic message = some y.scene.bus
  elsewhere : topic ≠ platform.repliesTopic
  registry : y.desk.registry = x.desk.registry
  stations : y.stations = x.stations
  made : y.made = x.made
  placed : ∀ p ∈ y.placed, p ∈ x.placed
  leaves : ∀ id, (y.placed.map (·.2.request.id)).count id +
    (if topic = client.requestsTopic then (Request.id? message).toList else []).count id ≤
      (x.placed.map (·.2.request.id)).count id

theorem Publishes.advances {topic message : String} (publishes : Publishes client platform x y topic message)
    (orderly : Orderly client platform x) (named : (⟨x, act, y⟩ : Event).registered = [])
    (idle : (⟨x, act, y⟩ : Event).handled = []) : Advances client platform ⟨x, act, y⟩ := by
  have other : x.scene.bus.Gains y.scene.bus platform.repliesTopic [] := by
    have gains := Bus.gains_publish? publishes.accepted platform.repliesTopic
    rw [if_neg publishes.elsewhere.symm] at gains
    exact gains
  have none : (⟨x, act, y⟩ : Event).posted platform.repliesTopic = [] := other.added_eq
  constructor
  case orderly =>
    refine ⟨⟨publishes.sides.1.trans orderly.sides.1, publishes.sides.2.trans orderly.sides.2⟩, ?_, ?_, ?_, ?_⟩
    · exact publishes.registry ▸ orderly.valid
    · exact fun p member => orderly.placed p (publishes.placed p member)
    · intro m member
      rw [other.waiting, List.append_nil] at member
      exact orderly.replies m member
    · exact publishes.stations ▸ orderly.stations
  case made => exact fun c member => publishes.made ▸ member
  case named =>
    rw [named]
    exact nofun
  case outgoing =>
    intro id
    have leaves := publishes.leaves id
    have own : (client.lane.waiting y.scene.bus).count id = (client.lane.waiting x.scene.bus).count id +
        (if topic = client.requestsTopic then (Request.id? message).toList else []).count id := by
      rw [Lane.waiting_gains (Bus.gains_publish? publishes.accepted client.lane.topic), List.count_append]
      show _ + ((if client.requestsTopic = topic then [message] else []).filterMap Request.id?).count id = _
      by_cases here : topic = client.requestsTopic
      · rw [if_pos here, if_pos here.symm, count_filterMap_cons]
        rfl
      · rw [if_neg here, if_neg (Ne.symm here)]
        rfl
    dsimp only [Relay.outgoing]
    rw [none, named, List.count_append, List.count_append, Lane.count_load, Lane.count_load, publishes.stations, own]
    simp only [List.filterMap_nil, List.count_nil]
    omega
  case incoming =>
    intro id
    dsimp only [Relay.incoming]
    rw [none, idle, Lane.count_load, Lane.count_load, publishes.stations,
      Lane.waiting_publish? publishes.accepted publishes.elsewhere.symm]
  case genuine =>
    rw [none]
    exact nofun
  case stays =>
    intro id p pending
    exact Or.inl (publishes.registry ▸ pending)
  case late => exact fun changed => absurd (congrArg (·.stats.late) publishes.registry) changed
  case resolves =>
    rw [idle]
    exact nofun

theorem publish_advances (apart : client.requestsTopic ≠ platform.repliesTopic) (orderly : Orderly client platform x)
    (i : Nat) : Advances client platform ⟨x, .publish i, x.publish i⟩ := by
  unfold publish
  cases found : x.placed[i]? with
  | none => exact nothing_advances orderly rfl rfl
  | some call =>
    obtain ⟨name, p⟩ := call
    dsimp only
    cases accepted : x.scene.bus.publish? x.client.requestsTopic p.request.encode with
    | none =>
      rw [Client.publish, accepted]
      exact release_advances orderly (fun _ _ own => .refused found own accepted) (fun _ => rfl) fun _ => rfl
    | some bus =>
      rw [Client.publish_accepted accepted]
      rw [orderly.sides.1] at accepted
      refine Publishes.advances ⟨⟨rfl, rfl⟩, accepted, apart, rfl, rfl, rfl, ?_, ?_⟩ orderly rfl rfl
      · exact fun q member => List.mem_of_mem_eraseIdx member
      · -- the id leaves the calls that are placed and joins the lane of requests
        intro id
        obtain ⟨inside, here⟩ := List.getElem?_eq_some_iff.mp found
        have split := ((List.getElem_cons_eraseIdx_perm inside).map (·.2.request.id)).count_eq id
        rw [if_pos rfl, orderly.placed _ (List.mem_of_getElem? found), ← split, here, List.map_cons, Nat.add_comm,
          ← List.count_append]
        exact Nat.le_refl _

theorem accept_advances (orderly : Orderly client platform x) {topic message : String}
    (foreign : topic ≠ client.requestsTopic ∧ topic ≠ platform.repliesTopic) :
    Advances client platform ⟨x, .accept topic message, x.accept topic message⟩ := by
  unfold accept
  split
  · rename_i bus accepted
    refine Publishes.advances ⟨⟨rfl, rfl⟩, accepted, foreign.2, rfl, rfl, rfl, fun _ member => member, ?_⟩ orderly rfl rfl
    intro id
    rw [if_neg foreign.1]
    exact Nat.le_refl _
  · exact nothing_advances orderly rfl rfl

/-! #### Consumers -/

/-- One station works, and nothing else changes but the scene. -/
structure Works (client : Client) (platform : Platform) (x y : Relay) (t u : Station) (i : Nat) : Prop where
  sides : y.client = x.client ∧ y.platform = x.platform
  placed : y.placed = x.placed
  made : y.made = x.made
  station : x.stations[i]? = some t
  stations : y.stations = x.stations.set i u
  orderly : u.Orderly client platform

namespace Works

variable {t u : Station} {i : Nat} (works : Works client platform x y t u i)

include works

theorem relay_orderly (orderly : Orderly client platform x) (valid : y.desk.registry.Valid)
    (replies : ∀ m ∈ (y.scene.bus.topic platform.repliesTopic).waiting, Genuine client.signer m) :
    Orderly client platform y := by
  refine ⟨⟨works.sides.1.trans orderly.sides.1, works.sides.2.trans orderly.sides.2⟩, valid, ?_, replies, ?_⟩
  · exact works.placed ▸ orderly.placed
  · intro v member
    rw [works.stations] at member
    rcases List.mem_or_eq_of_mem_set member with old | rfl
    · exact orderly.stations v old
    · exact works.orderly

/-- What comes to a lane and what leaves it does so at the station that works. -/
theorem count_load (l : Lane) {came left : Nat} (id : CallId)
    (flow : (l.waiting y.scene.bus).count id + (l.carried u).count id + left ≤
      (l.waiting x.scene.bus).count id + (l.carried t).count id + came) :
    (l.load y.scene.bus y.stations).count id + left ≤ (l.load x.scene.bus x.stations).count id + came := by
  have stations := l.count_flatMap_set works.station u id
  rw [Lane.count_load, Lane.count_load, works.stations]
  omega

theorem count_outgoing {came left : Nat} (id : CallId)
    (flow : (client.lane.waiting y.scene.bus).count id + (client.lane.carried u).count id + left ≤
      (client.lane.waiting x.scene.bus).count id + (client.lane.carried t).count id + came) :
    (y.outgoing client).count id + left ≤ (x.outgoing client).count id + came := by
  have load := works.count_load client.lane id flow
  rw [Relay.outgoing, Relay.outgoing, works.placed, List.count_append, List.count_append]
  omega

end Works

/-- A station that leaves the desk alone. An id goes on by what it takes and what it posts. -/
theorem Works.advances {t u : Station} {i : Nat} {posted : List String} (works : Works client platform x y t u i)
    (orderly : Orderly client platform x) (desk : y.desk = x.desk)
    (replies : ∀ m ∈ (y.scene.bus.topic platform.repliesTopic).waiting, Genuine client.signer m)
    (named : (⟨x, act, y⟩ : Event).registered = []) (idle : (⟨x, act, y⟩ : Event).handled = [])
    (posts : (⟨x, act, y⟩ : Event).posted platform.repliesTopic = posted)
    (genuine : ∀ m ∈ posted, Genuine client.signer m)
    (requested : ∀ id, (client.lane.waiting y.scene.bus).count id + (client.lane.carried u).count id +
      (posted.filterMap Reply.id?).count id ≤
        (client.lane.waiting x.scene.bus).count id + (client.lane.carried t).count id)
    (replied : ∀ id, (platform.lane.waiting y.scene.bus).count id + (platform.lane.carried u).count id ≤
      (platform.lane.waiting x.scene.bus).count id + (platform.lane.carried t).count id +
        (posted.filterMap Reply.id?).count id) : Advances client platform ⟨x, act, y⟩ := by
  constructor
  case orderly => exact works.relay_orderly orderly (desk ▸ orderly.valid) replies
  case made => exact fun c member => works.made ▸ member
  case named =>
    rw [named]
    exact nofun
  case outgoing =>
    intro id
    rw [posts, named]
    exact works.count_outgoing id (requested id)
  case incoming =>
    intro id
    rw [posts, idle]
    exact works.count_load platform.lane id (replied id)
  case genuine => exact posts ▸ genuine
  case stays => exact fun id p pending => Or.inl (desk ▸ pending)
  case late => exact fun changed => absurd (congrArg (·.registry.stats.late) desk) changed
  case resolves =>
    rw [idle]
    exact nofun

theorem Works.takes {t : Station} {w : Worker CallWork} {i : Nat}
    (works : Works client platform x y t { t with worker := w } i) (orderly : Orderly client platform x)
    (took : t.worker.take? x.scene = some (y.scene, w)) : Advances client platform ⟨x, .take i, y⟩ := by
  have suits := (orderly.stations t (List.mem_of_getElem? works.station)).suits
  obtain ⟨_, fewer, _⟩ := Worker.take?_waiting took
  have none : (⟨x, .take i, y⟩ : Event).posted platform.repliesTopic = [] :=
    List.drop_eq_nil_of_le (fewer _).length_le
  exact works.advances orderly (congrArg Traffic.desk (Worker.take?_cases took).1)
    (fun m member => orderly.replies m ((fewer _).subset member)) rfl rfl none nofun
    (Lane.count_take (fun role => (suits.requests role).1) took) (Lane.count_take suits.replies took)

section

variable {t : Station} {d : Delivery CallWork} {i k : Nat} {stats : ConsumerStats}

theorem handled_foreign (station : x.stations[i]? = some t) (other : t.role ≠ .replies) :
    (⟨x, .go i k, y⟩ : Event).handled = [] := by
  dsimp only [Event.handled]
  rw [station]
  exact if_neg other

theorem handled_replies (station : x.stations[i]? = some t) (found : t.worker.inFlight[k]? = some d)
    (role : t.role = .replies) : (⟨x, .go i k, y⟩ : Event).handled = [d.message] := by
  dsimp only [Event.handled]
  rw [station]
  dsimp only
  rw [if_pos role, found]
  rfl

end

theorem take_advances (orderly : Orderly client platform x) (i : Nat) :
    Advances client platform ⟨x, .take i, x.take i⟩ := by
  unfold take
  split
  · rename_i t station
    split
    · rename_i s w took
      have here := orderly.stations t (List.mem_of_getElem? station)
      exact Works.takes ⟨⟨rfl, rfl⟩, rfl, rfl, station, rfl, here.take orderly.replies took⟩ orderly took
    · exact nothing_advances orderly rfl rfl
  · exact nothing_advances orderly rfl rfl

section

variable {t : Station} {d : Delivery CallWork} {i k : Nat} {stats : ConsumerStats} {turn : Turn CallWork}

/-- A moment at a request. -/
theorem Works.answers (apart : client.requestsTopic ≠ platform.repliesTopic)
    (trusts : client.signer.Trusts platform.signer)
    (works : Works client platform x y t
      { t with worker := t.worker.put (t.worker.inFlight.eraseIdx k) stats turn } i)
    (orderly : Orderly client platform x) (role : t.role = .requests) (found : t.worker.inFlight[k]? = some d)
    (same : y.desk = x.desk)
    (turns : platform.Turns t.worker.consumer x.scene.bus d.message y.scene.bus turn) :
    Advances client platform ⟨x, .go i k, y⟩ := by
  have suits := (orderly.stations t (List.mem_of_getElem? works.station)).suits
  obtain ⟨posted, gains, genuine, requests, carried⟩ := turns.flow apart trusts suits role found stats
  have foreign : t.role ≠ .replies := by
    rw [role]
    exact nofun
  refine works.advances orderly same ?_ rfl (handled_foreign works.station foreign) gains.added_eq genuine ?_ ?_
  · intro m member
    rw [gains.waiting] at member
    rcases List.mem_append.mp member with old | new
    · exact orderly.replies m old
    · exact genuine m new
  · intro id
    have carried := carried id
    rw [requests]
    omega
  · intro id
    have arrived : platform.lane.waiting y.scene.bus = platform.lane.waiting x.scene.bus ++ posted.filterMap Reply.id? :=
      Lane.waiting_gains gains
    have none : ∀ w : Worker CallWork, platform.lane.carried { t with worker := w } = [] :=
      fun _ => Lane.carried_foreign foreign
    rw [arrived, none, none t.worker, List.count_append]
    exact Nat.le_refl _

/-- A dead letter is dropped. -/
theorem Works.discards (works : Works client platform x y t
      { t with worker := t.worker.put (t.worker.inFlight.eraseIdx k) stats turn } i)
    (orderly : Orderly client platform x) (role : t.role = .deadLetters) (same : y.scene = x.scene) :
    Advances client platform ⟨x, .go i k, y⟩ := by
  have lane : ∀ l : Lane, l.role ≠ .deadLetters → ∀ w : Worker CallWork, l.carried { t with worker := w } = [] := by
    intro l other w
    refine Lane.carried_foreign ?_
    rw [role]
    exact other.symm
  have foreign : t.role ≠ .replies := by
    rw [role]
    exact nofun
  have quiet : x.scene.bus.Gains y.scene.bus platform.repliesTopic [] := same ▸ .refl ..
  refine works.advances orderly (congrArg (·.env.desk) same) (same ▸ orderly.replies) rfl
    (handled_foreign works.station foreign) quiet.added_eq nofun ?_ ?_
  · intro id
    rw [same, lane client.lane nofun, lane client.lane nofun t.worker]
    exact Nat.le_refl _
  · intro id
    rw [same, lane platform.lane nofun, lane platform.lane nofun t.worker]
    exact Nat.le_refl _

/-- A reply is handled. -/
theorem Works.resolves {reply : Reply} (works : Works client platform x y t
      { t with worker := t.worker.put (t.worker.inFlight.eraseIdx k) stats (.ended .processed) } i)
    (orderly : Orderly client platform x) (role : t.role = .replies) (found : t.worker.inFlight[k]? = some d)
    (read : Reply.decode d.message = .ok reply) (verified : client.signer.verify reply = true)
    (bus : y.scene.bus = x.scene.bus)
    (resolved : y.desk.registry = (x.desk.registry.resolve x.scene.now reply.id.text reply.response).2) :
    Advances client platform ⟨x, .go i k, y⟩ := by
  have handled : (⟨x, .go i k, y⟩ : Event).handled = [d.message] := handled_replies works.station found role
  have none : (⟨x, .go i k, y⟩ : Event).posted platform.repliesTopic = [] := by
    rw [Event.posted, bus]
    exact (Bus.Gains.refl x.scene.bus platform.repliesTopic).added_eq
  constructor
  case orderly =>
    refine works.relay_orderly orderly ?_ (bus ▸ orderly.replies)
    rw [resolved]
    exact Registry.resolve_valid orderly.valid ..
  case made => exact fun c member => works.made ▸ member
  case named => exact nofun
  case outgoing =>
    intro id
    have foreign : t.role ≠ client.lane.role := by
      rw [role]
      exact nofun
    have empty : ∀ w : Worker CallWork, client.lane.carried { t with worker := w } = [] :=
      fun _ => Lane.carried_foreign foreign
    rw [none]
    refine works.count_outgoing id ?_
    rw [bus, empty, empty t.worker]
    exact Nat.le_refl _
  case incoming =>
    intro id
    rw [none, handled]
    refine works.count_load platform.lane id ?_
    rw [bus, ← Lane.count_carried_ended (l := platform.lane) found role stats .processed id,
      count_filterMap_cons]
    exact Nat.le_of_eq (Nat.add_assoc ..)
  case genuine =>
    rw [none]
    exact nofun
  case stays =>
    intro id p pending
    by_cases same : id = reply.id
    · refine Or.inr (Or.inr ?_)
      rw [handled, same, List.filterMap_cons, Reply.id?_eq_some read]
      exact List.mem_singleton_self _
    · refine Or.inl ?_
      have apart : id.text ≠ reply.id.text := fun text => same (CallId.ext_text text)
      show y.desk.registry.find? id.text = some p
      rw [resolved]
      exact Registry.find?_resolve_of_ne orderly.valid apart pending ..
  case late =>
    intro _
    rw [handled]
    exact nofun
  case resolves =>
    intro m member
    rw [handled] at member
    obtain rfl := List.mem_singleton.mp member
    exact ⟨reply, read, verified, handled, resolved⟩

/-- A delivery that goes on at the platform side waits for the answer to its own request. -/
theorem working_of_turns {c : Consumer} {before after : Bus} {message : String} {next : Delivery CallWork}
    (turns : platform.Turns c before message after turn) (going : turn = .going next) (work : CallWork) (until_ : Nat)
    (stage : next.stage = .handling work until_) : Request.id? next.message = some work.id := by
  subst going
  cases turns with
  | going same working =>
    rw [same]
    exact working work until_ stage

/-- The relay once a delivery was given a moment. -/
def turned (x : Relay) (i k : Nat) (t : Station) (d : Delivery CallWork) : Relay :=
  let (scene, stats, turn) := d.go (t.role.handler x.client x.platform) t.worker.consumer x.scene t.worker.stats
  { x with
    scene
    stations := x.stations.set i { t with worker := t.worker.put (t.worker.inFlight.eraseIdx k) stats turn } }

theorem go_cases (x : Relay) (i k : Nat) :
    (∃ t d, x.stations[i]? = some t ∧ t.worker.inFlight[k]? = some d ∧ x.go i k = x.turned i k t d) ∨
      (x.go i k = x ∧ ∀ t, x.stations[i]? = some t → t.worker.inFlight[k]? = none) := by
  unfold go
  cases station : x.stations[i]? with
  | none => exact Or.inr ⟨rfl, nofun⟩
  | some t =>
    dsimp only
    unfold Worker.goAt?
    cases found : t.worker.inFlight[k]? with
    | none =>
      refine Or.inr ⟨rfl, ?_⟩
      rintro _ ⟨⟩
      exact found
    | some d => exact Or.inl ⟨t, d, rfl, found, rfl⟩

theorem request_advances (apart : client.requestsTopic ≠ platform.repliesTopic)
    (trusts : client.signer.Trusts platform.signer) (orderly : Orderly client platform x) (role : t.role = .requests)
    (station : x.stations[i]? = some t) (found : t.worker.inFlight[k]? = some d) :
    Advances client platform ⟨x, .go i k, x.turned i k t d⟩ := by
  have here := orderly.stations t (List.mem_of_getElem? station)
  have handler : t.role.handler x.client x.platform = platform.handler := by
    rw [role, orderly.sides.2]
    rfl
  obtain ⟨desk, turns⟩ := platform.go_turns t.worker.consumer x.scene t.worker.stats
    (here.working role d (List.mem_of_getElem? found))
  rw [← handler] at desk turns
  refine Works.answers apart trusts ⟨⟨rfl, rfl⟩, rfl, rfl, station, rfl, ?_⟩ orderly role found desk turns
  exact here.put _ _ (fun _ member => List.mem_of_mem_eraseIdx member) fun _ going =>
    ⟨role, working_of_turns turns going⟩

/-- Only requests are waited for. Whatever else was taken is done with in one moment. -/
theorem turned_eq (here : t.Orderly client platform) (role : t.role ≠ .requests)
    (found : t.worker.inFlight[k]? = some d) {scene : Scene Traffic}
    (started : (t.role.handler x.client x.platform).start x.scene d.message = (scene, .done .processed)) :
    x.turned i k t d = { x with
      scene
      stations := x.stations.set i { t with
        worker := t.worker.put (t.worker.inFlight.eraseIdx k)
          { t.worker.stats with processed := t.worker.stats.processed + 1 } (.ended .processed) } } := by
  unfold turned
  rw [Delivery.go_fresh (here.fresh role d (List.mem_of_getElem? found)) (congrArg Prod.snd started), started]

theorem reply_advances (orderly : Orderly client platform x) (role : t.role = .replies)
    (station : x.stations[i]? = some t) (found : t.worker.inFlight[k]? = some d) :
    Advances client platform ⟨x, .go i k, x.turned i k t d⟩ := by
  have here := orderly.stations t (List.mem_of_getElem? station)
  have other : t.role ≠ .requests := by
    rw [role]
    exact nofun
  obtain ⟨reply, read, verified⟩ := here.genuine role d (List.mem_of_getElem? found)
  have started := Replies.start_verified x.scene read verified
  have handler : t.role.handler x.client x.platform = Replies.handler client.signer := by
    rw [role, orderly.sides.1]
    rfl
  rw [← handler] at started
  rw [turned_eq here other found started]
  refine Works.resolves ⟨⟨rfl, rfl⟩, rfl, rfl, station, rfl, ?_⟩ orderly role found read verified rfl rfl
  exact here.put _ _ (fun _ member => List.mem_of_mem_eraseIdx member) nofun

theorem deadLetter_advances (orderly : Orderly client platform x) (role : t.role = .deadLetters)
    (station : x.stations[i]? = some t) (found : t.worker.inFlight[k]? = some d) :
    Advances client platform ⟨x, .go i k, x.turned i k t d⟩ := by
  have here := orderly.stations t (List.mem_of_getElem? station)
  have other : t.role ≠ .requests := by
    rw [role]
    exact nofun
  have started : (t.role.handler x.client x.platform).start x.scene d.message = (x.scene, .done .processed) := by
    rw [role]
    rfl
  rw [turned_eq here other found started]
  refine Works.discards ⟨⟨rfl, rfl⟩, rfl, rfl, station, rfl, ?_⟩ orderly role rfl
  exact here.put _ _ (fun _ member => List.mem_of_mem_eraseIdx member) nofun

theorem go_advances (apart : client.requestsTopic ≠ platform.repliesTopic)
    (trusts : client.signer.Trusts platform.signer) (orderly : Orderly client platform x) (i k : Nat) :
    Advances client platform ⟨x, .go i k, x.go i k⟩ := by
  rcases go_cases x i k with ⟨t, d, station, found, goes⟩ | ⟨same, none⟩
  · rw [goes]
    cases role : t.role with
    | requests => exact request_advances apart trusts orderly role station found
    | replies => exact reply_advances orderly role station found
    | deadLetters => exact deadLetter_advances orderly role station found
  · rw [same]
    refine nothing_advances orderly rfl ?_
    dsimp only [Event.handled]
    split
    · rename_i t station
      rw [none t station]
      exact ite_self _
    · rfl

end

/-! #### Anyone -/

theorem step_advances (apart : client.requestsTopic ≠ platform.repliesTopic)
    (trusts : client.signer.Trusts platform.signer) (orderly : Orderly client platform x) (act : Act)
    (undisturbed : (⟨x, act, x.step act⟩ : Event).Undisturbed) : Advances client platform ⟨x, act, x.step act⟩ := by
  cases act with
  | place name id request => exact place_advances orderly name id request
  | publish i => exact publish_advances apart orderly i
  | withdraw i => exact withdraw_advances orderly i
  | look w => exact look_advances orderly w
  | leave serial => exact leave_advances orderly serial
  | sweep => exact desk_advances orderly (Registry.sweep_drops orderly.valid _) (fun _ _ due => .swept due) rfl rfl
  | cancel id =>
    refine desk_advances orderly (Registry.cancel_drops orderly.valid id) ?_ rfl rfl
    rintro _ p rfl
    exact .cancelled
  | reaper reaper? => exact desk_advances orderly (.refl orderly.valid fun _ => False) nofun rfl rfl
  | collect => exact desk_advances orderly (.refl orderly.valid fun _ => False) nofun rfl rfl
  | take i => exact take_advances orderly i
  | go i k => exact go_advances apart trusts orderly i k
  | accept topic message =>
    have foreign : topic ≠ x.client.requestsTopic ∧ topic ≠ x.platform.repliesTopic := undisturbed
    rw [orderly.sides.1, orderly.sides.2] at foreign
    exact accept_advances orderly foreign
  | pass time =>
    exact Still.advances ⟨⟨rfl, rfl⟩, rfl, rfl, .refl _, fun _ member => member⟩ orderly
      (.refl orderly.valid fun _ => False) nofun nofun rfl
  | stop =>
    exact Still.advances ⟨⟨rfl, rfl⟩, rfl, rfl, .refl _, fun _ member => member⟩ orderly
      (.refl orderly.valid fun _ => False) nofun nofun rfl

end

end Relay

end SoapRelay
