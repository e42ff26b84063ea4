import SoapRelay.Settings.Basic

/-!
# What the settings say for each part

Options of the parts of a bridge. A part whose settings mean nothing cannot be set up; the error
names the field.
-/

namespace SoapRelay

/-- The store that settings describe. `field` is the field that names its encoding. -/
def StoreSettings.store (s : StoreSettings) (field : String) : Except SettingsError Tls.Store :=
  match Tls.StoreKind.ofName s.kind with
  | .ok kind => .ok { location := s.location, kind, password := s.password }
  | .error reason => .error (.invalid field reason)

namespace Settings

def deadlines (s : Settings) : Deadlines where
  default := s.calls.timeout * 1000
  overrides := s.calls.customTimeouts.map fun (name, seconds) => (name, seconds * 1000)

def signingOptions (s : Settings) : Except SettingsError SigningOptions :=
  let signing := s.security.signing
  match KeyFamily.ofName? signing.keyType with
  | none =>
    .error (.invalid "security.signing.key_type"
      (SignerError.unsupportedKeyType signing.keyType).message)
  | some family =>
    match SignatureAlgorithm.ofName? signing.signature with
    | none =>
      .error (.invalid "security.signing.signature"
        (SignerError.unsupportedAlgorithm signing.signature).message)
    | some algorithm =>
      .ok {
        family
        privateKeyFile := signing.signKeyFile
        publicKeyFile := signing.verifyKeyFile
        provider := signing.provider
        algorithm }

def store? (settings? : Option StoreSettings) (field : String) :
    Except SettingsError (Option Tls.Store) :=
  match settings? with
  | none => .ok none
  | some s => some <$> s.store field

def trustStore (s : Settings) : Except SettingsError (Option Tls.Store) :=
  store? s.security.trustStore? "security.trust_store.type"

def tlsOptions (s : Settings) : Except SettingsError Tls.Options :=
  match Tls.HostnameCheck.ofName s.calls.hostnameVerification with
  | .error reason => .error (.invalid "soap.hostname_verification" reason)
  | .ok hostname => do
    let keyStore? ← store? s.security.keyStore? "security.key_store.type"
    let trustStore? ← s.trustStore
    return { keyStore?, trustStore?, perOrganization := s.security.perOrganization, hostname }

/-- Options of the inbound side. Its callers are checked against the trust store. -/
def inboundOptions (s : Settings) : Except SettingsError Tls.InboundOptions := do
  match s.security.serverIdentity? with
  | none => throw (.missing "security.server_identity")
  | some identity =>
    let identity ← identity.store "security.server_identity.type"
    return { identity, trustStore? := ← s.trustStore }

def retryPolicy (s : Settings) : RetryPolicy :=
  ⟨s.bus.redeliveryAttempts, s.bus.backoff⟩

def topics (s : Settings) : Exchange.Topics where
  requests := s.bus.requestsTopic
  replies := s.bus.repliesTopic
  suffix := s.bus.deadLetterSuffix
  concurrency := s.bus.concurrency
  policy := s.retryPolicy

def endpoint (s : Settings) : Endpoint :=
  ⟨s.calls.proxyPath, s.calls.healthPath⟩

def client (s : Settings) (signer : Signer) : Client :=
  ⟨signer, s.bus.requestsTopic, s.deadlines⟩

def platform (s : Settings) (signer : Signer) (resolver : Tls.Resolver) (transport : Transport) :
    Platform where
  signer
  resolver
  endpoint := s.calls.callEndpoint
  repliesTopic := s.bus.repliesTopic
  callTimeout := s.calls.callTimeout * 1000
  transport

end Settings

end SoapRelay
