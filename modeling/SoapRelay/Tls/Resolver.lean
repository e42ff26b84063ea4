import SoapRelay.Files
import SoapRelay.Keys.Certificate
import SoapRelay.Table
import SoapRelay.Tls.Options

/-!
# Which TLS context a call uses

A context holds what a connection trusts and the identity it presents. With selection by
organization each organization has a context of its own, and calls without an organization use the
default one, which presents no identity.
-/

namespace SoapRelay.Tls

inductive Error where
  | io (path : String) (cause : FileError)
  /-- A certificate or key that cannot be used. -/
  | unusable
  | incompleteEntry (path : String)
  | missingKeyStore
  | unknownOrganization (name : String)
  deriving DecidableEq, Repr

def Error.message : Error → String
  | .io path cause => "failed to read " ++ path ++ ": " ++ cause.message
  | .unusable => "openssl error"
  | .incompleteEntry path => "store entry " ++ path ++ " lacks a certificate or private key"
  | .missingKeyStore => "per-organization TLS requires a key store"
  | .unknownOrganization name => "unknown organization " ++ Quoted.text name

/-- A certificate with its private key and the certificates between it and a root. -/
structure Identity where
  certificate : Certificate
  key : PrivateKey
  chain : List Certificate

structure Context where
  trusted : List Certificate
  identity? : Option Identity
  /-- The organization whose identity is presented. -/
  organization? : Option String
  hostname : HostnameCheck

structure Resolver where
  default : Context
  organizations : Table Context
  perOrganization : Bool

namespace Resolver

/-- Hands out one context for every organization. -/
def ofDefault (c : Context) : Resolver := ⟨c, .empty, false⟩

/-- Adds the context of an organization, and selects by organization from then on. -/
def withOrganization (r : Resolver) (name : String) (c : Context) : Resolver :=
  { r with organizations := r.organizations.put name c, perOrganization := true }

def contextFor (r : Resolver) (organization : String) : Except Error Context :=
  if !r.perOrganization || organization = "" then .ok r.default
  else
    match r.organizations.get? organization with
    | some c => .ok c
    | none => .error (.unknownOrganization organization)

end Resolver

end SoapRelay.Tls
