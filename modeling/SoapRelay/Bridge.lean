import SoapRelay.Settings.Parts
import SoapRelay.Tls.Stores

/-!
# Starting a bridge

From its settings and the files they name, a bridge gets its signer and its TLS contexts, in this
order, and then runs both of its sides.
-/

namespace SoapRelay

inductive BridgeError where
  | settings (error : SettingsError)
  | signing (error : SignerError)
  | tls (error : Tls.Error)
  deriving DecidableEq

def BridgeError.message : BridgeError → String
  | .settings e => e.message
  | .signing e => "failed to load signing keys: " ++ e.message
  | .tls e => "failed to load tls material: " ++ e.message

namespace Bridge

def signer (files : Files) (s : Settings) : Except BridgeError Signer := do
  let options ← s.signingOptions.mapError .settings
  (Signer.load files options).mapError .signing

def resolver (files : Files) (s : Settings) : Except BridgeError Tls.Resolver := do
  let options ← s.tlsOptions.mapError .settings
  (Tls.Resolver.load files options).mapError .tls

def start (files : Files) (s : Settings) (transport : Transport) (hash : String → UInt64) :
    Except BridgeError Exchange := do
  let signer ← signer files s
  let resolver ← resolver files s
  return .start (.create (s.client signer) s.endpoint) (s.platform signer resolver transport) s.topics hash

end Bridge

end SoapRelay
