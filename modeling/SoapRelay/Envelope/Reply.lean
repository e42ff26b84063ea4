import SoapRelay.Envelope.CallId

/-!
# Reply envelopes

A reply is written `id~response~signature`. Whatever follows a third separator is ignored.
-/

namespace SoapRelay

structure Reply where
  id : CallId
  response : String
  signature : String
  deriving DecidableEq

namespace Reply

/-- What the signature covers: everything before it. -/
def unsigned (r : Reply) : String :=
  closed r.id.text ++ closed (armor r.response)

def encode (r : Reply) : String :=
  r.unsigned ++ r.signature

def decode (line : String) : Except EnvelopeError Reply :=
  match tokens line with
  | id :: response :: signature :: _ => do
    let id ← CallId.ofString id
    let response ← unarmor .response response
    return { id, response, signature }
  | ts => .error (.tokenCount .reply ts.length)

end Reply

end SoapRelay
