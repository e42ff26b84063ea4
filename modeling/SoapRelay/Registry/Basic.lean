import SoapRelay.Envelope.CallId
import SoapRelay.Registry.Stats
import SoapRelay.Table

/-!
# Calls that wait for their replies

A registry holds the pending calls by their ids. A call leaves it once, by a reply, a cancellation
or its deadline, and whoever takes the entry out decides how the call ends and leaves that ending
for the caller. The caller's ticket names the registration by a serial number, because an id may be
used again after its call has ended.

The entries are spread over shards by a hash of their ids. Times are milliseconds.
-/

namespace SoapRelay

inductive Ending where
  | reply (text : String)
  | timedOut
  | cancelled
  deriving DecidableEq, Repr

namespace Ending

/-- What a caller is told when there is no reply. -/
def message : Ending → String
  | .reply text => text
  | .timedOut => "no reply within the deadline"
  | .cancelled => "call cancelled"

end Ending

structure PendingCall where
  serial : Nat
  created : Nat
  deadline : Nat
  deriving DecidableEq, Repr

/-- The caller's hold on its registration. -/
structure Ticket where
  id : String
  serial : Nat
  deadline : Nat
  deriving DecidableEq, Repr

structure Registry where
  hash : String → UInt64
  shards : List (Table PendingCall)
  nextSerial : Nat
  /-- Endings that their callers have not seen yet, by serial. -/
  endings : List (Nat × Ending)
  stats : RegistryStats

namespace Registry

/-- A hash that mixes the characters of an id one after the other. -/
def mix (id : String) : UInt64 :=
  id.toList.foldl (fun h c => (h ^^^ UInt64.ofNat c.toNat) * 0x100000001b3) 0xcbf29ce484222325

/-- An empty registry of at least one shard. -/
def create (shards : Nat) (hash : String → UInt64) : Registry where
  hash
  shards := List.replicate (max 1 shards) .empty
  nextSerial := 0
  endings := []
  stats := .zero

def standardShards : Nat := 16

def shardIndex (r : Registry) (id : String) : Nat :=
  (r.hash id).toNat % r.shards.length

def shard (r : Registry) (id : String) : Table PendingCall :=
  r.shards.getD (r.shardIndex id) .empty

def find? (r : Registry) (id : String) : Option PendingCall :=
  (r.shard id).get? id

def contains (r : Registry) (id : String) : Bool :=
  (r.find? id).isSome

def pending (r : Registry) : Nat :=
  (r.shards.map Table.size).foldl (· + ·) 0

def setShard (r : Registry) (id : String) (t : Table PendingCall) : Registry :=
  { r with shards := r.shards.set (r.shardIndex id) t }

def remove (r : Registry) (id : String) : Registry :=
  r.setShard id ((r.shard id).erase id)

def deliver (r : Registry) (serial : Nat) (ending : Ending) : Registry :=
  { r with endings := (serial, ending) :: r.endings }

/-- Registers a call. An id that is pending is refused, and the refusal uses up a serial. -/
def register (r : Registry) (now : Nat) (id : CallId) (deadline : Nat) : Option Ticket × Registry :=
  let serial := r.nextSerial
  let r := { r with nextSerial := serial + 1 }
  if r.contains id.text then (none, r)
  else
    let r := r.setShard id.text ((r.shard id.text).put id.text ⟨serial, now, deadline⟩)
    (some ⟨id.text, serial, deadline⟩,
      { r with stats := { r.stats with registered := r.stats.registered + 1 } })

def duplicateMessage (id : CallId) : String :=
  "connection id " ++ id.text ++ " is already pending"

/-- Ends the call under an id with a reply. A reply that nobody waits for is counted as late. -/
def resolve (r : Registry) (now : Nat) (id reply : String) : Bool × Registry :=
  match r.find? id with
  | none => (false, { r with stats := { r.stats with late := r.stats.late + 1 } })
  | some p =>
    let stats := r.stats.addRoundTrip (1000 * (now - p.created))
    let r := { r with stats := { stats with completed := stats.completed + 1 } }
    (true, (r.remove id).deliver p.serial (.reply reply))

def cancel (r : Registry) (id : String) : Bool × Registry :=
  match r.find? id with
  | none => (false, r)
  | some p =>
    let r := { r with stats := { r.stats with cancelled := r.stats.cancelled + 1 } }
    (true, (r.remove id).deliver p.serial .cancelled)

def expired (r : Registry) (now : Nat) : List PendingCall :=
  r.shards.flatMap fun t => (t.entries.map (·.2)).filter (·.deadline ≤ now)

/-- Ends every call whose deadline has come, and counts them. -/
def sweep (r : Registry) (now : Nat) : Nat × Registry :=
  let ended := r.expired now
  let shards := r.shards.map fun t => ⟨t.entries.filter fun e => !decide (e.2.deadline ≤ now)⟩
  let timedOut := r.stats.timedOut + UInt64.ofNat ended.length
  (ended.length,
    { r with
      shards
      endings := ended.map (fun p => (p.serial, .timedOut)) ++ r.endings
      stats := { r.stats with timedOut } })

/-- Whether the call pending under the id of a ticket is the ticket's own. -/
def owns (r : Registry) (t : Ticket) : Bool :=
  match r.find? t.id with
  | some p => p.serial == t.serial
  | none => false

def endingOf? (r : Registry) (t : Ticket) : Option Ending :=
  (r.endings.find? (·.1 == t.serial)).map (·.2)

def clearEnding (r : Registry) (t : Ticket) : Registry :=
  { r with endings := r.endings.filter (·.1 != t.serial) }

/-- What a caller finds that waits until `until_`: an ending that is there already, or else a
timeout once that time has come. `none` means that it has to wait on. -/
def await (r : Registry) (t : Ticket) (until_ now : Nat) : Option Ending × Registry :=
  match r.endingOf? t with
  | some ending => (some ending, r.clearEnding t)
  | none =>
    if until_ ≤ now then
      if r.owns t then
        let r := { r with stats := { r.stats with timedOut := r.stats.timedOut + 1 } }
        (some .timedOut, r.remove t.id)
      else (some .cancelled, r)
    else (none, r)

/-- Gives up a ticket. Its call is cancelled if it is still pending. -/
def release (r : Registry) (t : Ticket) : Registry :=
  if r.owns t then
    let r := { r with stats := { r.stats with cancelled := r.stats.cancelled + 1 } }
    r.remove t.id
  else r.clearEnding t

def summary (r : Registry) : String :=
  "CorrelationRegistry \x7b shards: " ++ toString r.shards.length ++ ", pending: "
    ++ toString r.pending ++ " \x7d"

end Registry

end SoapRelay
