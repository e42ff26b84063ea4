import SoapRelay.Http.CallError
import SoapRelay.Http.Uri
import SoapRelay.Tls.Resolver

/-!
# Outbound calls

The URI of an outbound call is the configured endpoint with the context of the request as its
path. A call is refused before any connection is made if its URI cannot be read, names a scheme
other than `https`, or has no host.
-/

namespace SoapRelay

structure OutboundCall where
  at_ : Nat
  uri : String
  payload : String
  context : Tls.Context
  /-- How long the call may take, in milliseconds. -/
  timeout : Nat

/-- The organization whose identity the call presents. -/
def OutboundCall.organization? (c : OutboundCall) : Option String :=
  c.context.organization?

/-- The order in which calls are listed: by time, then by URI, then by payload. -/
def OutboundCall.before (a b : OutboundCall) : Bool :=
  if a.at_ ≠ b.at_ then a.at_ < b.at_
  else if a.uri ≠ b.uri then a.uri < b.uri
  else a.payload ≤ b.payload

/-- The URI of a call: the endpoint without its trailing slashes, then the context. A context that
is neither empty nor begins with a slash is set off by one. -/
def callUri (endpoint context : String) : String :=
  let base := String.ofList (endpoint.toList.reverse.dropWhile (· = '/')).reverse
  match context.toList with
  | [] | '/' :: _ => base ++ context
  | _ => base ++ "/" ++ context

inductive Refusal where
  | unreadable
  | insecure (uri : Uri)
  | noHost (uri : Uri)
  deriving DecidableEq, Repr

def refusal? (uri : String) : Option Refusal :=
  match Uri.parse? uri with
  | none => some .unreadable
  | some parsed =>
    if !parsed.isSecure then some (.insecure parsed)
    else if parsed.host?.isNone then some (.noHost parsed)
    else none

/-- The error of a refused call; the reason for an unreadable URI is the reader's. -/
def Refusal.error (uri : String) : Refusal → CallError
  | .unreadable => .invalidUri uri "not a URI"
  | .insecure parsed => .invalidUri parsed.text "scheme must be https"
  | .noHost parsed => .invalidUri parsed.text "missing host"

end SoapRelay
