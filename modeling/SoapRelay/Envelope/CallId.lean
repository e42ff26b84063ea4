import SoapRelay.Text.Base64
import SoapRelay.Text.Quoted
import SoapRelay.Text.Utf8

/-!
# Call ids and the fields of an envelope

An envelope is one line of tokens joined by `~`. The call id stands in it as it is and therefore
is not empty and has no `~`; every other field is written as the Base64 of its UTF-8 bytes. The
last token is the signature, which is taken as it is.
-/

namespace SoapRelay

def separator : Char := '~'

/-- The id that ties a reply to its request. -/
structure CallId where
  text : String
  not_empty : text ≠ ""
  no_separator : separator ∉ text.toList
  deriving DecidableEq

inductive EnvelopeKind where
  | request
  | reply
  deriving DecidableEq, Repr

def EnvelopeKind.name : EnvelopeKind → String
  | .request => "request"
  | .reply => "reply"

/-- The fields that are written as Base64. -/
inductive Field where
  | organization
  | context
  | payload
  | response
  deriving DecidableEq, Repr

def Field.name : Field → String
  | .organization => "organization"
  | .context => "context"
  | .payload => "soap_payload"
  | .response => "soap_response"

inductive EnvelopeError where
  | tokenCount (kind : EnvelopeKind) (count : Nat)
  | base64 (field : Field) (reason : Base64.DecodeError)
  | utf8 (field : Field)
  | callId (text : String)
  deriving DecidableEq, Repr

def EnvelopeError.message : EnvelopeError → String
  | .tokenCount kind count =>
    "invalid number of tokens for " ++ kind.name ++ " envelope: " ++ toString count
  | .base64 field reason => "field `" ++ field.name ++ "` is not valid base64: " ++ reason.message
  | .utf8 field => "field `" ++ field.name ++ "` is not valid UTF-8"
  | .callId text => "invalid connection id: " ++ Quoted.text text

def CallId.ofString (text : String) : Except EnvelopeError CallId :=
  if h : text ≠ "" ∧ separator ∉ text.toList then .ok ⟨text, h.1, h.2⟩
  else .error (.callId text)

def armor (text : String) : String :=
  Base64.text (Utf8.bytes text)

def unarmor (field : Field) (token : String) : Except EnvelopeError String :=
  match Base64.decode (Utf8.bytes token) with
  | .error reason => .error (.base64 field reason)
  | .ok bytes =>
    match Utf8.text? bytes with
    | some text => .ok text
    | none => .error (.utf8 field)

/-- The tokens of a line; a line without a separator is one token. -/
def tokens (line : String) : List String :=
  (line.toList.splitOn separator).map String.ofList

/-- A token followed by the separator. -/
def closed (token : String) : String :=
  token ++ String.singleton separator

end SoapRelay
