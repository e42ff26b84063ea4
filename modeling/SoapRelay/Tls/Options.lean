import SoapRelay.Text.Quoted

/-!
# Options for TLS material

Where certificates and keys are kept, how the stores are encoded, and how the host name of an
outbound endpoint is checked.
-/

namespace SoapRelay.Tls

inductive StoreKind where
  | pkcs12
  | pem
  deriving DecidableEq, Repr

/-- Reads the name of an encoding, in any ASCII case. The error shows the name in upper case. -/
def StoreKind.ofName (text : String) : Except String StoreKind :=
  match text.toUpper with
  | "PKCS12" | "PFX" | "P12" => .ok .pkcs12
  | "PEM" => .ok .pem
  | other => .error ("unknown store type " ++ Quoted.text other)

/-- How the host name of an outbound endpoint is checked. `acceptAll` skips the check of the name,
not that of the certificate chain. -/
inductive HostnameCheck where
  | acceptAll
  | standard
  deriving DecidableEq, Repr

/-- Reads the name of a check, in any ASCII case and with `_` for `-`. The error shows the name as
it was compared. -/
def HostnameCheck.ofName (text : String) : Except String HostnameCheck :=
  match text.toLower.map fun c => if c = '_' then '-' else c with
  | "accept-all" | "allow-all-hostnames" => .ok .acceptAll
  | "standard" | "browser-compatible-hostnames" => .ok .standard
  | other => .error ("unknown hostname verification " ++ Quoted.text other)

/-- A key or trust store. A key store is a directory with one entry for each organization; a trust
store and a single identity are files. -/
structure Store where
  location : String
  kind : StoreKind
  password : String := ""
  deriving DecidableEq, Repr

/-- The store as it may be logged: without its password. -/
def Store.redacted (s : Store) : String :=
  let kind := match s.kind with
    | .pkcs12 => "Pkcs12"
    | .pem => "Pem"
  "StoreOptions \x7b location: " ++ Quoted.path s.location
    ++ ", password: \"<redacted>\", kind: " ++ kind ++ " \x7d"

/-- Options of the outbound side. With `perOrganization` a call presents the client identity of its
organization; otherwise it presents none. -/
structure Options where
  keyStore? : Option Store
  trustStore? : Option Store
  perOrganization : Bool
  hostname : HostnameCheck

/-- Options of the inbound side: what it shows its callers, and what it checks them against. -/
structure InboundOptions where
  identity : Store
  trustStore? : Option Store

end SoapRelay.Tls
