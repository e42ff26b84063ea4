import SoapRelay.Keys.Archive
import SoapRelay.Tls.Resolver

/-!
# Reading key and trust stores

A trust store is a file of certificates. An identity is an archive, or a certificate file beside a
file of its key. A key store is a directory of identities; the name of an organization is the name of
its entry without the extension. Entries are read in the order of their names, whatever the order in
which the directory lists them.
-/

namespace SoapRelay.Tls

def readFile (disk : Disk) (path : String) : Except Error (List UInt8) :=
  match disk.read path with
  | .ok bytes => .ok bytes
  | .error e => .error (.io path e)

/-- What was made out of a certificate or key, if anything was. -/
def usable {α : Type} (r : Option α) : Except Error α :=
  match r with
  | some a => .ok a
  | none => .error .unusable

def complete {α : Type} (path : String) (r : Option α) : Except Error α :=
  match r with
  | some a => .ok a
  | none => .error (.incompleteEntry path)

/-! ### Names of files -/

/-- A name up to its last point, and what follows it. A point at the front divides nothing. -/
def splitName (name : List Char) : List Char × Option (List Char) :=
  let backwards := name.reverse
  let extension := (backwards.takeWhile (· ≠ '.')).reverse
  match backwards.dropWhile (· ≠ '.') with
  | _ :: c :: rest => ((c :: rest).reverse, some extension)
  | _ => (name, none)

/-- The path with `key` for the extension of the file, or behind its name if it has none. -/
def keyPath (path : String) : String :=
  let backwards := path.toList.reverse
  let name := (backwards.takeWhile (· ≠ '/')).reverse
  let folder := (backwards.dropWhile (· ≠ '/')).reverse
  String.ofList (folder ++ (splitName name).1 ++ ".key".toList)

/-- The path of a file in a directory. -/
def entryPath (folder name : String) : String :=
  if folder.endsWith "/" then folder ++ name else folder ++ "/" ++ name

def StoreKind.extensions : StoreKind → List String
  | .pkcs12 => ["pfx", "p12"]
  | .pem => ["crt", "pem"]

/-- The organization that a file in a key store is for, unless it is no entry. -/
def organizationOf? (kind : StoreKind) (name : String) : Option String :=
  match splitName name.toList with
  | (stem, some extension) =>
    if kind.extensions.contains (String.ofList extension).toLower then some (String.ofList stem)
    else none
  | (_, none) => none

/-! ### Stores -/

def Store.certificates (disk : Disk) (s : Store) : Except Error (List Certificate) := do
  let bytes ← readFile disk s.location
  match s.kind with
  | .pkcs12 =>
    let archive ← usable (Archive.open? bytes s.password)
    return archive.certificate?.toList ++ archive.others
  | .pem => usable (Certificate.allOfPem? bytes)

def Identity.load (disk : Disk) (path : String) (kind : StoreKind) (password : String) :
    Except Error Identity := do
  let bytes ← readFile disk path
  match kind with
  | .pkcs12 =>
    let archive ← usable (Archive.open? bytes password)
    let certificate ← complete path archive.certificate?
    let key ← complete path archive.key?
    return ⟨certificate, key, archive.others⟩
  | .pem =>
    match ← usable (Certificate.allOfPem? bytes) with
    | certificate :: chain =>
      let key ← usable (PrivateKey.ofPem? (← readFile disk (keyPath path)))
      return ⟨certificate, key, chain⟩
    | [] => throw (.incompleteEntry path)

/-- The organization and the path of an entry, unless the name is none of an entry. -/
def Store.entry? (s : Store) (name : List UInt8) : Option (String × String) := do
  let name ← Utf8.text? name
  let organization ← organizationOf? s.kind name
  return (organization, entryPath s.location name)

/-- The entries of a key store, in the order of their names. -/
def Store.entries (disk : Disk) (s : Store) : Except Error (List (String × String)) :=
  match disk.list s.location with
  | .error e => .error (.io s.location e)
  | .ok names => .ok ((names.mergeSort fun a b => a ≤ b).filterMap s.entry?)

/-- The identities of a key store by organization. Of several entries for one organization the last
one counts. -/
def Store.identities (disk : Disk) (s : Store) : Except Error (Table Identity) := do
  let entries ← s.entries disk
  entries.foldlM (fun t (organization, path) => do
    return t.put organization (← Identity.load disk path s.kind s.password)) Table.empty

/-! ### Contexts -/

/-- Whether a key is long enough to identify with. -/
def isStrong : PublicKey → Bool
  | .rsa k | .rsaPss k => 2047 ≤ k.modulus.log2
  | .ec _ | .ed25519 _ => true

/-- Whether an identity can be presented: its key is that of its certificate, and long enough. -/
def Identity.isSound (i : Identity) : Bool :=
  match i.certificate.key? with
  | some key => isStrong key && i.key.belongsTo key
  | none => false

/-- The context that presents an identity for an organization. -/
def Context.present (plain : Context) (organization : String) (i : Identity) : Except Error Context :=
  if i.isSound then .ok { plain with identity? := some i, organization? := some organization }
  else .error .unusable

/-- The certificates of a trust store that may be left out. -/
def trusted (disk : Disk) : Option Store → Except Error (List Certificate)
  | some s => s.certificates disk
  | none => .ok []

namespace Resolver

def names (r : Resolver) : List String :=
  (r.organizations.entries.map (·.1)).mergeSort fun a b => a ≤ b

def load (disk : Disk) (o : Options) : Except Error Resolver := do
  let plain : Context := ⟨← trusted disk o.trustStore?, none, none, o.hostname⟩
  if o.perOrganization then
    match o.keyStore? with
    | none => throw .missingKeyStore
    | some s =>
      let identities ← s.identities disk
      let contexts ← identities.entries.mapM fun (organization, identity) => do
        return (organization, ← plain.present organization identity)
      return ⟨plain, ⟨contexts⟩, true⟩
  else return ofDefault plain

end Resolver

/-- What an inbound endpoint shows its callers, and what it checks their certificates against, if it
asks for them. -/
structure Acceptor where
  identity : Identity
  trusted? : Option (List Certificate)

def Acceptor.load (disk : Disk) (o : InboundOptions) : Except Error Acceptor := do
  let identity ← Identity.load disk o.identity.location o.identity.kind o.identity.password
  if identity.isSound then
    match o.trustStore? with
    | some s => return ⟨identity, some (← s.certificates disk)⟩
    | none => return ⟨identity, none⟩
  else throw .unusable

end SoapRelay.Tls
