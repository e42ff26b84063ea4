import SoapRelay.Text.Duration
import SoapRelay.Text.Quoted

/-!
# Failures of an outbound call

Only a call that ran out of time or whose connection failed may succeed when it is made again.
-/

namespace SoapRelay

inductive CallError where
  | timeout (bound : Duration)
  | io (reason : String)
  | cryptography (reason : String)
  | invalidUri (uri reason : String)
  | request (reason : String)
  deriving DecidableEq, Repr

namespace CallError

def message : CallError → String
  | .timeout bound => "call timed out after " ++ bound.text
  | .io reason => "i/o error: " ++ reason
  | .cryptography reason => "openssl error: " ++ reason
  | .invalidUri uri reason => "invalid uri " ++ Quoted.text uri ++ ": " ++ reason
  | .request reason => "invalid request: " ++ reason

/-- Whether the same call may succeed when it is made again. -/
def isTransient : CallError → Bool
  | .timeout _ | .io _ => true
  | .cryptography _ | .invalidUri _ _ | .request _ => false

end CallError

end SoapRelay
