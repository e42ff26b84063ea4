import SoapRelay.Envelope.CallId

/-!
# Request envelopes

A request is written `id~context~payload~signature`, or with the organization before the
signature when there is one. The organization may be present and empty, which is a different
envelope from one without it.
-/

namespace SoapRelay

structure Request where
  id : CallId
  context : String
  payload : String
  organization? : Option String
  signature : String
  deriving DecidableEq

namespace Request

/-- The organization, empty if there is none. -/
def organization (r : Request) : String :=
  r.organization?.getD ""

def hasOrganization (r : Request) : Bool :=
  r.organization ≠ ""

/-- What the signature covers: everything before it. -/
def unsigned (r : Request) : String :=
  closed r.id.text ++ closed (armor r.context) ++ closed (armor r.payload)
    ++ match r.organization? with
      | some organization => closed (armor organization)
      | none => ""

def encode (r : Request) : String :=
  r.unsigned ++ r.signature

def readOrganization : Option String → Except EnvelopeError (Option String)
  | some token => some <$> unarmor .organization token
  | none => pure none

/-- Reads the fields. The organization is read first, then the id, the context and the payload. -/
def ofFields (id context payload : String) (organization? : Option String) (signature : String) :
    Except EnvelopeError Request := do
  let organization? ← readOrganization organization?
  let id ← CallId.ofString id
  let context ← unarmor .context context
  let payload ← unarmor .payload payload
  return { id, context, payload, organization?, signature }

def decode (line : String) : Except EnvelopeError Request :=
  match tokens line with
  | [id, context, payload, signature] => ofFields id context payload none signature
  | [id, context, payload, organization, signature] =>
    ofFields id context payload (some organization) signature
  | ts => .error (.tokenCount .request ts.length)

end Request

end SoapRelay
