import SoapRelay.Endpoint
import SoapRelay.Envelope.Numbered

/-!
# Calls under way on the client side

The client side with the calls that were made to it, by name: which of them came in through the
endpoint, and under which id a request was published for them.
-/

namespace SoapRelay

inductive CallResult where
  | forwarded (result : Except ForwardError String)
  | answered (answer : HttpAnswer)

structure FinishedCall where
  name : String
  result : CallResult
  at_ : Nat

structure Front where
  client : Client
  endpoint : Endpoint
  nextId : Nat
  /-- Names of calls that came in through the endpoint. -/
  inbound : List String
  published : Table CallId
  /-- The serials of the tickets that calls last waited with. -/
  waiting : Table Nat
  /-- Calls that ended without waiting, until they are collected. -/
  finished : List FinishedCall

namespace Front

def create (client : Client) (endpoint : Endpoint) : Front := ⟨client, endpoint, 1, [], .empty, .empty, []⟩

/-- How the result of a call is shown to its caller. -/
def present (f : Front) (name : String) (r : Except ForwardError String) : CallResult :=
  if f.inbound.contains name then .answered (.ofForwarded r) else .forwarded r

def finish (f : Front) (now : Nat) (name : String) (r : CallResult) : Front :=
  { f with finished := f.finished ++ [⟨name, r, now⟩] }

/-- A call that fails at once. Its caller is told why, unless the call breaks off. -/
def refuse (f : Front) (now : Nat) (name : String) (e : ForwardError) : Front :=
  if e.isTold then f.finish now name (f.present name (.error e)) else f

@[simp] theorem refuse_client (f : Front) (now : Nat) (name : String) (e : ForwardError) :
    (f.refuse now name e).client = f.client := by
  unfold refuse
  split
  · rfl
  · rfl

@[simp] theorem refuse_inbound (f : Front) (now : Nat) (name : String) (e : ForwardError) :
    (f.refuse now name e).inbound = f.inbound := by
  unfold refuse
  split
  · rfl
  · rfl

/-- Starts a call and lets its caller wait. -/
def forward (f : Front) (s : Scene Traffic) (name : String) (r : ForwardRequest) :
    Front × Scene Traffic :=
  let id := CallId.numbered f.nextId
  let f := { f with nextId := f.nextId + 1, waiting := f.waiting.erase name }
  match f.client.forward s id r with
  | (s, .error e) => (f.refuse s.now name e, s)
  | (s, .ok ticket) =>
    let desk := s.env.desk.enter name ticket ticket.deadline
    ({ f with published := f.published.put name id, waiting := f.waiting.put name ticket.serial },
      s.withEnv { s.env with desk })

/-- A call made on the client side itself. -/
def call (f : Front) (s : Scene Traffic) (name : String) (r : ForwardRequest) : Front × Scene Traffic :=
  { f with inbound := f.inbound.filter (· != name) }.forward s name r

/-- A call that comes in through the endpoint. -/
def serve (f : Front) (s : Scene Traffic) (name : String) (call : InboundCall) : Front × Scene Traffic :=
  let f := { f with inbound := name :: f.inbound, waiting := f.waiting.erase name }
  match f.endpoint.route call with
  | .turnedAway a => (f.finish s.now name (.answered a), s)
  | .forwarded r => f.forward s name r

def abandon (f : Front) (s : Scene Traffic) (name : String) : Scene Traffic :=
  match (f.waiting.get? name).bind s.env.desk.abandon? with
  | some desk => s.withEnv { s.env with desk }
  | none => s

def collect (f : Front) (s : Scene Traffic) : List FinishedCall × Front × Scene Traffic :=
  let waited := s.env.desk.ended.map fun e => ⟨e.name, f.present e.name e.ending.forwarded, e.at_⟩
  let desk := { s.env.desk with ended := [] }
  (f.finished ++ waited, { f with finished := [] }, s.withEnv { s.env with desk })

end Front

end SoapRelay
