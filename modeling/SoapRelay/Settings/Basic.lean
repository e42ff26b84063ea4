import SoapRelay.Client
import SoapRelay.Endpoint
import SoapRelay.Exchange
import SoapRelay.Settings.Address
import SoapRelay.Toml.Document
import SoapRelay.Toml.Section

/-!
# Settings of a bridge

Every section of the settings and nearly every field in it may be left out, and then has a standard
value. Names of algorithms and stores are kept as they are written; whether they mean something is
found out when the part they belong to is set up. Times are in the units of the file: seconds, and
milliseconds for the backoff.
-/

namespace SoapRelay

inductive SettingsError where
  | io (path : String) (cause : FileError)
  /-- The text does not follow the format, or does not have the expected fields. -/
  | malformed
  | invalid (field reason : String)
  | missing (section_ : String)
  deriving DecidableEq, Repr

def SettingsError.message : SettingsError → String
  | .io path cause => "failed to read " ++ path ++ ": " ++ cause.message
  | .malformed => "failed to parse configuration"
  | .invalid field reason => "invalid " ++ field ++ ": " ++ reason
  | .missing s => "missing " ++ s

structure CallSettings where
  timeout : Nat
  /-- Timeouts by context or by text in the payload. -/
  customTimeouts : List (String × Nat)
  hostnameVerification : String
  callEndpoint : String
  callTimeout : Nat
  proxyPath : String
  healthPath : String
  listen : Address
  deriving DecidableEq, Repr

structure StoreSettings where
  location : String
  password : String
  kind : String
  deriving DecidableEq, Repr

structure SigningSettings where
  keyType : String
  signKeyFile : String
  verifyKeyFile : String
  provider : String
  signature : String
  deriving DecidableEq, Repr

structure SecuritySettings where
  keyStore? : Option StoreSettings
  trustStore? : Option StoreSettings
  serverIdentity? : Option StoreSettings
  perOrganization : Bool
  signing : SigningSettings
  deriving DecidableEq, Repr

structure BusSettings where
  requestsTopic : String
  repliesTopic : String
  deadLetterSuffix : String
  /-- Messages of one topic that are handled at the same time. -/
  concurrency : Nat
  redeliveryAttempts : Nat
  backoff : Nat
  deriving DecidableEq, Repr

structure Settings where
  calls : CallSettings
  security : SecuritySettings
  bus : BusSettings
  deriving DecidableEq, Repr

/-! ### Standard values -/

def CallSettings.standard : CallSettings where
  timeout := Deadlines.standardWait / 1000
  customTimeouts := []
  hostnameVerification := "standard"
  callEndpoint := Platform.standardEndpoint
  callTimeout := Platform.standardCallTimeout / 1000
  proxyPath := Endpoint.standard.proxyPath
  healthPath := Endpoint.standard.healthPath
  listen := .four [0, 0, 0, 0] 8443

def SigningSettings.standard : SigningSettings where
  keyType := KeyFamily.rsa.name
  signKeyFile := "sign-key.der"
  verifyKeyFile := "verify-key.der"
  provider := "default"
  signature := SignatureAlgorithm.name ⟨.sha256, .rsa⟩

def SecuritySettings.standard : SecuritySettings := ⟨none, none, none, false, .standard⟩

def BusSettings.standard : BusSettings where
  requestsTopic := Client.standardRequestsTopic
  repliesTopic := Platform.standardRepliesTopic
  deadLetterSuffix := Consumer.standardSuffix
  concurrency := Consumer.standardConcurrency
  redeliveryAttempts := RetryPolicy.standard.attempts
  backoff := RetryPolicy.standard.backoff

/-! ### Reading -/

open Toml (Value Section)

/-- Timeouts by name, in the order of the names. -/
def customTimeouts? (v : Value) : Option (List (String × Nat)) := do
  let timeouts ← (← v.entries?).mapM fun (name, v) => do return (name, ← v.count?)
  return timeouts.mergeSort fun a b => a.1 ≤ b.1

def Address.ofValue? (v : Value) : Option Address := do
  Address.ofText? (← v.text?)

def CallSettings.ofValue? (v : Value) : Option CallSettings := do
  let s ← Section.ofValue? ["timeout_secs", "custom_timeouts", "hostname_verification",
    "call_endpoint", "call_timeout_secs", "proxy_path", "health_path", "listen"] v
  return {
    timeout := ← s.field "timeout_secs" Value.count? standard.timeout
    customTimeouts := ← s.field "custom_timeouts" customTimeouts? standard.customTimeouts
    hostnameVerification :=
      ← s.field "hostname_verification" Value.text? standard.hostnameVerification
    callEndpoint := ← s.field "call_endpoint" Value.text? standard.callEndpoint
    callTimeout := ← s.field "call_timeout_secs" Value.count? standard.callTimeout
    proxyPath := ← s.field "proxy_path" Value.text? standard.proxyPath
    healthPath := ← s.field "health_path" Value.text? standard.healthPath
    listen := ← s.field "listen" Address.ofValue? standard.listen }

/-- The location of a store must be given. -/
def StoreSettings.ofValue? (v : Value) : Option StoreSettings := do
  let s ← Section.ofValue? ["location", "password", "type"] v
  return {
    location := ← s.required "location" Value.text?
    password := ← s.field "password" Value.text? ""
    kind := ← s.field "type" Value.text? "PKCS12" }

def SigningSettings.ofValue? (v : Value) : Option SigningSettings := do
  let s ← Section.ofValue?
    ["key_type", "sign_key_file", "verify_key_file", "provider", "signature"] v
  return {
    keyType := ← s.field "key_type" Value.text? standard.keyType
    signKeyFile := ← s.field "sign_key_file" Value.text? standard.signKeyFile
    verifyKeyFile := ← s.field "verify_key_file" Value.text? standard.verifyKeyFile
    provider := ← s.field "provider" Value.text? standard.provider
    signature := ← s.field "signature" Value.text? standard.signature }

def SecuritySettings.ofValue? (v : Value) : Option SecuritySettings := do
  let s ← Section.ofValue?
    ["key_store", "trust_store", "server_identity", "per_organization", "signing"] v
  return {
    keyStore? := ← s.optional "key_store" StoreSettings.ofValue?
    trustStore? := ← s.optional "trust_store" StoreSettings.ofValue?
    serverIdentity? := ← s.optional "server_identity" StoreSettings.ofValue?
    perOrganization := ← s.field "per_organization" Value.boolean? false
    signing := ← s.field "signing" SigningSettings.ofValue? .standard }

def BusSettings.ofValue? (v : Value) : Option BusSettings := do
  let s ← Section.ofValue? ["requests_topic", "replies_topic", "dead_letter_suffix",
    "concurrency", "redelivery_attempts", "backoff_millis"] v
  return {
    requestsTopic := ← s.field "requests_topic" Value.text? standard.requestsTopic
    repliesTopic := ← s.field "replies_topic" Value.text? standard.repliesTopic
    deadLetterSuffix := ← s.field "dead_letter_suffix" Value.text? standard.deadLetterSuffix
    concurrency := ← s.field "concurrency" Value.count? standard.concurrency
    redeliveryAttempts :=
      ← s.field "redelivery_attempts" Value.count? standard.redeliveryAttempts
    backoff := ← s.field "backoff_millis" Value.count? standard.backoff }

namespace Settings

def ofEntries? (t : Toml.Entries) : Option Settings := do
  let s ← Section.ofEntries? ["soap", "security", "bus"] t
  return {
    calls := ← s.field "soap" CallSettings.ofValue? .standard
    security := ← s.field "security" SecuritySettings.ofValue? .standard
    bus := ← s.field "bus" BusSettings.ofValue? .standard }

def parse (text : String) : Except SettingsError Settings :=
  match Toml.parse? text >>= ofEntries? with
  | some s => .ok s
  | none => .error .malformed

def load (files : Files) (path : String) : Except SettingsError Settings :=
  match files.readText path with
  | .ok text => parse text
  | .error e => .error (.io path e)

end Settings

end SoapRelay
