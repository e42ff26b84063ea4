import SoapRelay.Consumer.Handler
import SoapRelay.Http.Transport
import SoapRelay.Registry.Desk
import SoapRelay.Signature.Signer

/-!
# What passes beside the bus

The callers that wait for replies, the outbound calls that were made and what was signed, oldest
first.
-/

namespace SoapRelay

/-- An outbound call with the request that it was made for. -/
structure Invocation where
  id : CallId
  call : OutboundCall

structure Traffic where
  desk : Desk
  invocations : List Invocation
  /-- The contents that were signed, with their tokens. -/
  signed : List (String × String)

namespace Traffic

/-- Nothing has passed yet, and the registry spreads its calls by that hash of their ids. -/
def start (hash : String → UInt64) : Traffic := ⟨.create (.create Registry.standardShards hash), [], []⟩

def calls (t : Traffic) : List OutboundCall :=
  t.invocations.map (·.call)

def noteSigned {ε : Type} [Signable ε] (t : Traffic) (envelope : ε) : Traffic :=
  { t with signed := t.signed ++ [(Signable.unsigned envelope, Signable.signature envelope)] }

def withRegistry (t : Traffic) (r : Registry) : Traffic :=
  { t with desk := { t.desk with registry := r } }

end Traffic

/-- Work that waits for the answer to an outbound call. -/
structure CallWork where
  id : CallId
  result : Except CallError String

end SoapRelay
