import SoapRelay.Traffic

/-!
# The client side

The client side signs a call as a request, registers it, publishes it and waits for its reply. A
call is registered before its request is published, so no reply comes before there is someone to
take it. Replies that are malformed or not properly signed change nothing.
-/

namespace SoapRelay

inductive ForwardError where
  | sign (error : SignerError)
  | duplicate (id : CallId)
  /-- The deadline lies beyond the time that can be told, and the call breaks off. -/
  | deadlineOutOfRange
  | publish (topic : String)
  | timedOut
  | cancelled
  deriving DecidableEq

namespace ForwardError

def message : ForwardError → String
  | .sign e => "failed to sign request: " ++ e.message
  | .duplicate id => Registry.duplicateMessage id
  | .deadlineOutOfRange => "overflow when adding duration to instant"
  | .publish topic => "failed to publish request: " ++ Bus.closedMessage topic
  | .timedOut => Ending.message .timedOut
  | .cancelled => Ending.message .cancelled

def isTimeout : ForwardError → Bool
  | .timedOut => true
  | _ => false

/-- Whether the caller is told of it. Nobody is told anything of a call that breaks off. -/
def isTold : ForwardError → Bool
  | .deadlineOutOfRange => false
  | _ => true

end ForwardError

def Ending.forwarded : Ending → Except ForwardError String
  | .reply text => .ok text
  | .timedOut => .error .timedOut
  | .cancelled => .error .cancelled

structure ForwardRequest where
  context : String
  payload : String
  organization? : Option String
  deriving DecidableEq, Repr

structure Client where
  signer : Signer
  requestsTopic : String
  deadlines : Deadlines

namespace Client

def standardRequestsTopic : String := "requests"

def request (id : CallId) (r : ForwardRequest) : Request where
  id
  context := r.context
  payload := r.payload
  organization? := r.organization?
  signature := ""

/-- A call that is registered, and the signed request that is to be published for it. -/
structure Placed where
  ticket : Ticket
  request : Request

def register (c : Client) (s : Scene Traffic) (request : Request) : Scene Traffic × Except ForwardError Placed :=
  match Clock.after? s.now (c.deadlines.waitFor request.context request.payload) with
  | none => (s, .error .deadlineOutOfRange)
  | some deadline =>
    match s.env.desk.registry.register s.now request.id deadline with
    | (none, r) => (s.withEnv (s.env.withRegistry r), .error (.duplicate request.id))
    | (some ticket, r) => (s.withEnv (s.env.withRegistry r), .ok ⟨ticket, request⟩)

def place (c : Client) (s : Scene Traffic) (id : CallId) (r : ForwardRequest) :
    Scene Traffic × Except ForwardError Placed :=
  match c.signer.sign? (request id r) with
  | none => (s, .error (.sign .signing))
  | some signed => c.register (s.withEnv (s.env.noteSigned signed)) signed

/-- Publishes the request of a registered call. A request that is not accepted leaves its call
cancelled. -/
def publish (c : Client) (s : Scene Traffic) (p : Placed) : Scene Traffic × Except ForwardError Ticket :=
  match s.bus.publish? c.requestsTopic p.request.encode with
  | none =>
    (s.withEnv (s.env.withRegistry (s.env.desk.registry.release p.ticket)), .error (.publish c.requestsTopic))
  | some bus => (s.withBus bus, .ok p.ticket)

/-- Starts a call. The caller waits with the ticket until the deadline of the call. -/
def forward (c : Client) (s : Scene Traffic) (id : CallId) (r : ForwardRequest) :
    Scene Traffic × Except ForwardError Ticket :=
  match c.place s id r with
  | (s, .error e) => (s, .error e)
  | (s, .ok placed) => c.publish s placed

end Client

/-- Takes a reply to the call that waits for it. A reply that nobody waits for does no harm. -/
def Replies.handle (signer : Signer) (s : Scene Traffic) (message : String) : Scene Traffic × Outcome :=
  match Reply.decode message with
  | .error e => (s, .fatal e.message)
  | .ok reply =>
    if signer.verify reply then
      let (_, r) := s.env.desk.registry.resolve s.now reply.id.text reply.response
      (s.withEnv (s.env.withRegistry r), .processed)
    else (s, .fatal "invalid signature")

def Replies.handler (signer : Signer) : Handler Traffic CallWork where
  start s message :=
    let (s, o) := Replies.handle signer s message
    (s, .done o)
  finish s _ := (s, .processed)

end SoapRelay
