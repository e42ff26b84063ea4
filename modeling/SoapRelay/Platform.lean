import SoapRelay.Traffic

/-!
# The platform side

The platform side makes the real call for each request and publishes the signed reply. A request
that is malformed, not properly signed or from an unknown organization never leads to a call.
-/

namespace SoapRelay

inductive ProcessError where
  | malformed (error : EnvelopeError)
  | invalidSignature (id : CallId)
  | tls (error : Tls.Error)
  | call (error : CallError)
  | sign (error : SignerError)
  | publish (topic : String)
  deriving DecidableEq

namespace ProcessError

def message : ProcessError → String
  | .malformed e => "malformed request envelope: " ++ e.message
  | .invalidSignature id => "request " ++ id.text ++ " failed signature verification"
  | .tls e => e.message
  | .call e => "outbound call failed: " ++ e.message
  | .sign e => "failed to sign reply: " ++ e.message
  | .publish topic => "failed to publish reply: " ++ Bus.closedMessage topic

/-- Whether processing the same message again may succeed. -/
def isRetryable : ProcessError → Bool
  | .call e => e.isTransient
  | .publish _ => true
  | .malformed _ | .invalidSignature _ | .tls _ | .sign _ => false

def outcome (e : ProcessError) : Outcome :=
  if e.isRetryable then .retryable e.message else .fatal e.message

end ProcessError

structure Platform where
  signer : Signer
  resolver : Tls.Resolver
  /-- Where calls go; the context of a request is appended to it. -/
  endpoint : String
  repliesTopic : String
  /-- How long one call may take, in milliseconds. -/
  callTimeout : Nat
  transport : Transport

namespace Platform

def standardEndpoint : String := "https://localhost:443"

def standardRepliesTopic : String := "replies"

def standardCallTimeout : Nat := 30000

/-- The request in a message, once its signature and its organization have been checked, and the
context that its call uses. -/
def screen (p : Platform) (message : String) : Except ProcessError (Request × Tls.Context) :=
  match Request.decode message with
  | .error e => .error (.malformed e)
  | .ok request =>
    if p.signer.verify request then
      match p.resolver.contextFor request.organization with
      | .error e => .error (.tls e)
      | .ok context => .ok (request, context)
    else .error (.invalidSignature request.id)

def callFor (p : Platform) (now : Nat) (request : Request) (context : Tls.Context) : OutboundCall where
  at_ := now
  uri := callUri p.endpoint request.context
  payload := request.payload
  context
  timeout := p.callTimeout

/-- Publishes the signed reply to a call that was answered. -/
def answer (p : Platform) (s : Scene Traffic) (w : CallWork) : Scene Traffic × Except ProcessError Unit :=
  match w.result with
  | .error e => (s, .error (.call e))
  | .ok response =>
    let reply : Reply := { id := w.id, response, signature := "" }
    match p.signer.sign? reply with
    | none => (s, .error (.sign .signing))
    | some reply =>
      let s := s.withEnv (s.env.noteSigned reply)
      match s.bus.publish? p.repliesTopic reply.encode with
      | none => (s, .error (.publish p.repliesTopic))
      | some bus => (s.withBus bus, .ok ())

def finish (p : Platform) (s : Scene Traffic) (w : CallWork) : Scene Traffic × Outcome :=
  match p.answer s w with
  | (s, .ok ()) => (s, .processed)
  | (s, .error e) => (s, e.outcome)

def start (p : Platform) (s : Scene Traffic) (message : String) : Scene Traffic × Progress CallWork :=
  match p.screen message with
  | .error e => (s, .done e.outcome)
  | .ok (request, context) =>
    let call := p.callFor s.now request context
    let answer := p.transport s.env.calls call
    let s := s.withEnv { s.env with invocations := s.env.invocations ++ [⟨request.id, call⟩] }
    let w : CallWork := ⟨request.id, answer.result⟩
    if answer.after = 0 then
      let (s, o) := p.finish s w
      (s, .done o)
    else (s, .waiting w (s.now + answer.after))

def handler (p : Platform) : Handler Traffic CallWork := ⟨p.start, p.finish⟩

/-- Handles one message to its end; time goes on to the answer of the call. -/
def handle (p : Platform) (s : Scene Traffic) (message : String) : Scene Traffic × Outcome :=
  match p.start s message with
  | (s, .done o) => (s, o)
  | (s, .waiting w u) => p.finish { s with now := u } w

end Platform

end SoapRelay
