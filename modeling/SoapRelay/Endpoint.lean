import SoapRelay.Client

/-!
# The inbound endpoint

An inbound call is a health check, a call to forward, or is turned away: for its path, for want of
an identity, or for its method, in this order.
-/

namespace SoapRelay

structure InboundCall where
  method : String
  path : String
  /-- The common name of the caller's certificate. -/
  identity? : Option String
  body : String
  deriving DecidableEq, Repr

structure HttpAnswer where
  status : Nat
  contentType? : Option String
  body : String
  deriving DecidableEq, Repr

namespace HttpAnswer

def empty (status : Nat) : HttpAnswer := ⟨status, none, ""⟩

def xml (body : String) : HttpAnswer := ⟨200, some "text/xml; charset=UTF-8", body⟩

def healthy : HttpAnswer := ⟨200, some "application/json", "\x7b\"status\":\"UP\"\x7d"⟩

def ofForwarded : Except ForwardError String → HttpAnswer
  | .ok text => xml text
  | .error e => if e.isTimeout then empty 504 else empty 500

end HttpAnswer

structure Endpoint where
  /-- Below it are the calls to forward; the rest of their path is their context. -/
  proxyPath : String
  healthPath : String
  deriving DecidableEq, Repr

namespace Endpoint

def standard : Endpoint := ⟨"/proxy-server", "/actuator/health"⟩

/-- The proxy path without trailing slashes. -/
def stem (e : Endpoint) : List Char :=
  (e.proxyPath.toList.reverse.dropWhile (· = '/')).reverse

/-- What follows the proxy path in a path, if that is where the path leads. -/
def context? (e : Endpoint) (path : String) : Option String :=
  let stem := e.stem
  let cs := path.toList
  if stem.isPrefixOf cs then
    match cs.drop stem.length with
    | [] => some ""
    | '/' :: rest => some (String.ofList ('/' :: rest))
    | _ => none
  else none

inductive Route where
  | turnedAway (answer : HttpAnswer)
  | forwarded (request : ForwardRequest)
  deriving DecidableEq, Repr

def route (e : Endpoint) (call : InboundCall) : Route :=
  if call.path = e.healthPath then .turnedAway .healthy
  else
    match e.context? call.path with
    | none => .turnedAway (.empty 404)
    | some context =>
      match call.identity? with
      | none => .turnedAway (.empty 401)
      | some organization =>
        if call.method ≠ "POST" then .turnedAway (.empty 405)
        else .forwarded ⟨context, call.body, some organization⟩

end Endpoint

end SoapRelay
