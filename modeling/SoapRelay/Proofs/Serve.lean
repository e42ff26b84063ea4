import SoapRelay.Front
import SoapRelay.Proofs.Endpoint
import SoapRelay.Proofs.Forward
import SoapRelay.Proofs.Relay

/-!
# What a call that comes in leads to

An authorized call becomes a pending call and a published request. Any other call is answered on the
spot and leaves everything else as it was.
-/

namespace SoapRelay

/-- The status tells a reply from a timeout and both from everything else, and a reply is passed on as
it is. -/
structure HttpAnswer.Tells (answer : HttpAnswer) (result : Except ForwardError String) : Prop where
  text : ∀ text, answer = .xml text ↔ result = .ok text
  replied : answer.status = 200 ↔ ∃ text, result = .ok text
  timedOut : answer.status = 504 ↔ result = .error .timedOut
  failed : answer.status = 500 ↔ ∃ error, result = .error error ∧ error ≠ .timedOut

theorem HttpAnswer.ofForwarded_tells (result : Except ForwardError String) : (ofForwarded result).Tells result := by
  cases result with
  | ok text =>
    refine ⟨?_, ?_, ?_, ?_⟩
    · intro other
      simp [ofForwarded, xml]
    · simp [ofForwarded, xml]
    · simp [ofForwarded, xml]
    · simp [ofForwarded, xml]
  | error error =>
    cases error <;> refine ⟨?_, ?_, ?_, ?_⟩ <;> simp [ofForwarded, ForwardError.isTimeout, empty, xml]

theorem Desk.enter_deadline (d : Desk) (name : String) (ticket : Ticket) :
    d.enter name ticket ticket.deadline = { d with waiters := d.waiters ++ [⟨name, ticket, ticket.deadline⟩] } := by
  rw [enter, Ticket.limit, Nat.min_self]

namespace Front

variable {f g : Front} {s t : Scene Traffic} {name context organization : String} {call : InboundCall}

/-- One request more is published, which says what the call says, in the name of an organization, and its
call is pending. Its caller waits for it. -/
structure Forwards (f : Front) (s : Scene Traffic) (name : String) (call : InboundCall)
    (context organization : String) (result : Front × Scene Traffic) : Prop where
  published : ∃ line request, result.2.bus.topic f.client.requestsTopic =
      (s.bus.topic f.client.requestsTopic).accept line ∧ Request.decode line = .ok request ∧
      (tokens line).length = 5 ∧
      Client.Carries request (.numbered f.nextId) ⟨context, call.body, some organization⟩
  elsewhere : ∀ topic, topic ≠ f.client.requestsTopic → result.2.bus.topic topic = s.bus.topic topic
  pending : ∃ serial deadline, s.env.desk.registry.Enters result.2.env.desk.registry
      ((CallId.numbered f.nextId).text, ⟨serial, s.now, deadline⟩) ∧
    result.2.env.desk.waiters =
      s.env.desk.waiters ++ [⟨name, ⟨(CallId.numbered f.nextId).text, serial, deadline⟩, deadline⟩]
  waits : result.1.finished = f.finished

theorem serve_turnedAway (s : Scene Traffic) (name : String) {answer : HttpAnswer} (route : f.endpoint.route call = .turnedAway answer) :
    (f.serve s name call).2 = s ∧
      (f.serve s name call).1.finished = f.finished ++ [⟨name, .answered answer, s.now⟩] := by
  unfold serve
  dsimp only
  rw [route]
  exact ⟨rfl, rfl⟩

theorem serve_forwarded {r : ForwardRequest} (route : f.endpoint.route call = .forwarded r) :
    f.serve s name call =
      { f with inbound := name :: f.inbound, waiting := f.waiting.erase name }.forward s name r := by
  unfold serve
  dsimp only
  rw [route]

theorem forward_refused {r : ForwardRequest} {error : ForwardError}
    (refused : f.client.forward s (.numbered f.nextId) r = (t, .error error)) (name : String) :
    f.forward s name r =
      ({ f with nextId := f.nextId + 1, waiting := f.waiting.erase name }.refuse t.now name error, t) := by
  unfold forward
  dsimp only
  rw [refused]

theorem forward_accepted {r : ForwardRequest} {ticket : Ticket}
    (accepted : f.client.forward s (.numbered f.nextId) r = (t, .ok ticket)) (name : String) :
    f.forward s name r =
      ({ f with
          nextId := f.nextId + 1
          published := f.published.put name (.numbered f.nextId)
          waiting := (f.waiting.erase name).put name ticket.serial },
        t.withEnv { t.env with desk :=
          { t.env.desk with waiters := t.env.desk.waiters ++ [⟨name, ticket, ticket.deadline⟩] } }) := by
  rw [← Desk.enter_deadline]
  unfold forward
  dsimp only
  rw [accepted]

theorem forward_ready (name : String) (shaped : s.env.desk.registry.Shaped)
    (ready : f.client.Ready s (.numbered f.nextId) ⟨context, call.body, some organization⟩) :
    f.Forwards s name call context organization (f.forward s name ⟨context, call.body, some organization⟩) := by
  obtain ⟨signed, deadline, bus, signs, _, topics, forwarded⟩ := Client.forward_ready shaped ready
  have carries := Client.carries_of_sign? signs
  have clean := Client.separator_not_mem_of_sign? signs
  obtain ⟨p, pending, _⟩ | ⟨_, _, enters⟩ :=
    Registry.register_cases shaped s.now (.numbered f.nextId) deadline
  · exact absurd pending (ready.new p)
  rw [forward_accepted forwarded]
  refine ⟨⟨signed.encode, signed, ?_, Request.decode_encode clean, ?_, carries⟩, ?_, ⟨_, _, enters, rfl⟩, rfl⟩
  · exact (topics _).trans (if_pos rfl)
  · rw [Request.encode, Request.tokens_unsigned_append signed clean, carries.organization]
    rfl
  · intro topic other
    exact (topics topic).trans (if_neg other)

theorem Forwards.unique {context' organization' : String} {result : Front × Scene Traffic}
    (one : f.Forwards s name call context organization result)
    (other : f.Forwards s name call context' organization' result) :
    context = context' ∧ organization = organization' := by
  obtain ⟨line, request, published, read, _, carries⟩ := one.published
  obtain ⟨line', request', published', read', _, carries'⟩ := other.published
  have same : line = line' := by
    have waiting := congrArg Topic.waiting (published.symm.trans published')
    exact List.singleton_inj.mp (List.append_cancel_left waiting)
  subst same
  obtain rfl := Except.ok.inj (read.symm.trans read')
  exact ⟨carries.context.symm.trans carries'.context,
    Option.some.inj (carries.organization.symm.trans carries'.organization)⟩

theorem serve_ready (shaped : s.env.desk.registry.Shaped)
    (ready : ∀ r, f.endpoint.route call = .forwarded r → f.client.Ready s (.numbered f.nextId) r)
    (route : f.endpoint.route call = .forwarded ⟨context, call.body, some organization⟩) :
    f.Forwards s name call context organization (f.serve s name call) := by
  rw [serve_forwarded route]
  obtain ⟨published, elsewhere, pending, waits⟩ := forward_ready
    (f := { f with inbound := name :: f.inbound, waiting := f.waiting.erase name }) name shaped (ready _ route)
  exact ⟨published, elsewhere, pending, waits⟩

theorem not_forwards_of_scene_eq {result : Front × Scene Traffic} (same : result.2 = s) :
    ¬f.Forwards s name call context organization result := by
  intro forwards
  obtain ⟨line, _, published, _⟩ := forwards.published
  rw [same] at published
  have more := congrArg Topic.published published
  exact absurd more (Nat.ne_of_lt (Nat.lt_succ_self _))

theorem forwards_iff_authorized (shaped : s.env.desk.registry.Shaped)
    (ready : ∀ r, f.endpoint.route call = .forwarded r → f.client.Ready s (.numbered f.nextId) r) :
    f.Forwards s name call context organization (f.serve s name call) ↔
      f.endpoint.Authorized call context organization := by
  constructor
  · intro forwards
    have routes := Endpoint.route_routes f.endpoint call
    cases route : f.endpoint.route call with
    | turnedAway answer => exact absurd forwards (not_forwards_of_scene_eq (serve_turnedAway s name route).1)
    | forwarded r =>
      rw [route] at routes
      cases routes with
      | forwarded authorized =>
        obtain ⟨rfl, rfl⟩ := forwards.unique (serve_ready shaped ready route)
        exact authorized
  · intro authorized
    exact serve_ready shaped ready authorized.route

theorem serve_unauthorized (unauthorized : ∀ context organization, ¬f.endpoint.Authorized call context organization) :
    (f.serve s name call).2 = s ∧ ∃ answer, f.endpoint.Answers call answer ∧
      (f.serve s name call).1.finished = f.finished ++ [⟨name, .answered answer, s.now⟩] := by
  have routes := Endpoint.route_routes f.endpoint call
  cases route : f.endpoint.route call with
  | forwarded r =>
    rw [route] at routes
    cases routes with
    | forwarded authorized => exact absurd authorized (unauthorized _ _)
  | turnedAway answer =>
    rw [route] at routes
    cases routes with
    | turnedAway answers _ =>
      obtain ⟨scene, finished⟩ := serve_turnedAway s name route
      exact ⟨scene, answer, answers, finished⟩

theorem present_inbound (inbound : f.inbound.contains name) (result : Except ForwardError String) :
    f.present name result = .answered (.ofForwarded result) :=
  if_pos inbound

/-- A call that came in through the endpoint is answered by how it ended, whether it is refused at once or
its caller has waited. Only a call that breaks off is never answered. -/
structure Reports (f : Front) (s : Scene Traffic) (name : String) (call : InboundCall) : Prop where
  refused : ∀ r s' error, f.endpoint.route call = .forwarded r →
    f.client.forward s (.numbered f.nextId) r = (s', .error error) → error.isTold = true →
    ∃ answer, answer.Tells (.error error) ∧
      (f.serve s name call).1.finished = f.finished ++ [⟨name, .answered answer, s'.now⟩]
  inbound : (f.serve s name call).1.inbound.contains name
  waited : ∀ (g : Front) (t : Scene Traffic), g.inbound.contains name → ∀ e ∈ t.env.desk.ended, e.name = name →
    ∃ answer : HttpAnswer, answer.Tells e.ending.forwarded ∧ ⟨name, .answered answer, e.at_⟩ ∈ (g.collect t).1

theorem forward_inbound (f : Front) (s : Scene Traffic) (name : String) (r : ForwardRequest) :
    (f.forward s name r).1.inbound = f.inbound := by
  unfold forward
  dsimp only
  split
  · exact refuse_inbound _ _ _ _
  · rfl

theorem serve_reports (f : Front) (s : Scene Traffic) (name : String) (call : InboundCall) :
    f.Reports s name call := by
  have listed : (name :: f.inbound).contains name := by simp
  refine ⟨?_, ?_, ?_⟩
  · intro r s' error route refused told
    refine ⟨.ofForwarded (.error error), HttpAnswer.ofForwarded_tells _, ?_⟩
    have outcome := forward_refused
      (f := { f with inbound := name :: f.inbound, waiting := f.waiting.erase name }) refused name
    rw [serve_forwarded route, outcome, refuse, if_pos told, present_inbound listed]
    rfl
  · cases route : f.endpoint.route call with
    | turnedAway answer =>
      unfold serve
      dsimp only
      rw [route]
      exact listed
    | forwarded r =>
      rw [serve_forwarded route, forward_inbound]
      exact listed
  · intro g t inbound e member own
    refine ⟨.ofForwarded e.ending.forwarded, HttpAnswer.ofForwarded_tells _, ?_⟩
    refine List.mem_append_right _ (List.mem_map.mpr ⟨e, member, ?_⟩)
    rw [own, present_inbound inbound]

/-- The endpoint forwards exactly the authorized calls, each as a request that reads back as what the call
says. It answers every other call at once and leaves the bus, the registry and its counters alone. The
answer to a call that it forwards tells how that call ended. -/
theorem endpoint_forwards_exactly_authorized (shaped : s.env.desk.registry.Shaped) :
    ((∀ r, f.endpoint.route call = .forwarded r → f.client.Ready s (.numbered f.nextId) r) →
        ∀ context organization, f.Forwards s name call context organization (f.serve s name call) ↔
          f.endpoint.Authorized call context organization) ∧
      ((∀ context organization, ¬f.endpoint.Authorized call context organization) →
        (f.serve s name call).2 = s ∧ ∃ answer, f.endpoint.Answers call answer ∧
          (f.serve s name call).1.finished = f.finished ++ [⟨name, .answered answer, s.now⟩]) ∧
      f.Reports s name call :=
  ⟨fun ready _ _ => forwards_iff_authorized shaped ready, serve_unauthorized, serve_reports f s name call⟩

namespace Ping

def front : Front := .create Relay.Loopback.client .standard

def scene : Scene Traffic := ⟨0, .empty, false, .start Registry.mix⟩

def post : InboundCall := ⟨"POST", "/proxy-server/Ping", some "org-a", "<ping/>"⟩

theorem post_authorized : front.endpoint.Authorized post "/Ping" "org-a" :=
  ⟨⟨by decide +kernel, Or.inr ⟨"Ping", rfl⟩⟩, by decide, rfl, rfl⟩

theorem ready (r : ForwardRequest) : front.client.Ready scene (.numbered front.nextId) r := by
  refine ⟨rfl, ?_, ?_, by decide⟩
  · rfl
  · intro p pending
    have empty : ((CallId.numbered front.nextId).text, p) ∈
        (Registry.create Registry.standardShards Registry.mix).entries := pending
    rw [Registry.entries_create] at empty
    cases empty

end Ping

/-- The call of an organization is forwarded, and the same call without an identity is not. -/
theorem endpoint_forwards_exactly_authorized_of_ping :
    Ping.scene.env.desk.registry.Shaped ∧
      Ping.front.Forwards Ping.scene "a" Ping.post "/Ping" "org-a" (Ping.front.serve Ping.scene "a" Ping.post) ∧
      (Ping.front.serve Ping.scene "a" { Ping.post with identity? := none }).2 = Ping.scene := by
  have shaped : Ping.scene.env.desk.registry.Shaped := (Registry.create_valid Registry.standardShards _).toShaped
  refine ⟨shaped, ?_, ?_⟩
  · exact ((endpoint_forwards_exactly_authorized shaped).1 (fun r _ => Ping.ready r) _ _).mpr Ping.post_authorized
  · refine ((endpoint_forwards_exactly_authorized shaped).2.1 ?_).1
    intro context organization authorized
    cases authorized.identity

end Front

end SoapRelay
