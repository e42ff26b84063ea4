import SoapRelay.Registry.Desk

/-!
# Runs over a registry

Steps on one registry, with tickets and waiting callers kept by name. A ticket that takes the name
of an older one replaces it, and the older one is given up.
-/

namespace SoapRelay

structure RegistrySession where
  now : Nat
  desk : Desk
  tickets : Table Ticket
  /-- Callers that have started to wait and have not been sent away, with the serials of their
  tickets. -/
  callers : Table Nat

namespace RegistrySession

/-- A session on a registry, with nobody there yet. -/
def ofRegistry (registry : Registry) : RegistrySession := ⟨0, .create registry, .empty, .empty⟩

def start (shards : Nat) (hash : String → UInt64) : RegistrySession := ofRegistry (.create shards hash)

/-- When a call times out: after some time, or at some time. -/
inductive Limit where
  | after (wait : Nat)
  | at_ (time : Nat)
  deriving DecidableEq, Repr

def Limit.deadline (now : Nat) : Limit → Nat
  | .after wait => now + wait
  | .at_ time => time

inductive Step where
  | register (id : String) (limit : Limit) (name : String)
  | wait (name : String) (until? : Option Nat)
  | abort (name : String)
  | drop (name : String)
  | resolve (id reply : String)
  | cancel (id : String)
  | contains (id : String)
  | evict
  | sleep (time : Nat)
  | reaper (interval : Nat)
  | stopReaper
  deriving DecidableEq, Repr

inductive Answer where
  | registered (id : String) (deadline : Nat)
  | duplicate (id : CallId)
  | invalid (error : EnvelopeError)
  | waiting
  | unknown
  | flag (yes : Bool)
  | count (n : Nat)
  | none
  deriving DecidableEq

def withRegistry (s : RegistrySession) (r : Registry) : RegistrySession :=
  { s with desk := { s.desk with registry := r } }

def drop (s : RegistrySession) (name : String) : RegistrySession :=
  match s.tickets.get? name with
  | some t => { s.withRegistry (s.desk.registry.release t) with tickets := s.tickets.erase name }
  | .none => s

def register (s : RegistrySession) (id : String) (limit : Limit) (name : String) :
    Answer × RegistrySession :=
  match CallId.ofString id with
  | .error e => (.invalid e, s)
  | .ok id =>
    match s.desk.registry.register s.now id (limit.deadline s.now) with
    | (.none, r) => (.duplicate id, s.withRegistry r)
    | (some t, r) =>
      let s := (s.withRegistry r).drop name
      (.registered t.id t.deadline, { s with tickets := s.tickets.put name t })

def perform (s : RegistrySession) : Step → Answer × RegistrySession
  | .register id limit name => s.register id limit name
  | .wait name until? =>
    match s.tickets.get? name with
    | .none => (.unknown, s)
    | some t =>
      let desk := s.desk.enter name t (until?.getD t.deadline)
      (.waiting, { s with
        desk, tickets := s.tickets.erase name, callers := s.callers.put name t.serial })
  | .abort name =>
    match s.callers.get? name with
    | .none => (.unknown, s)
    | some serial =>
      let s := { s with callers := s.callers.erase name }
      match s.desk.abandon? serial with
      | some desk => (.flag true, { s with desk })
      | .none => (.flag false, s)
  | .drop name => (.flag (s.tickets.contains name), s.drop name)
  | .resolve id reply =>
    let (yes, r) := s.desk.registry.resolve s.now id reply
    (.flag yes, s.withRegistry r)
  | .cancel id =>
    let (yes, r) := s.desk.registry.cancel id
    (.flag yes, s.withRegistry r)
  | .contains id => (.flag (s.desk.registry.contains id), s)
  | .evict =>
    let (n, r) := s.desk.registry.sweep s.now
    (.count n, s.withRegistry r)
  | .sleep time =>
    let limit := s.now + time
    (.none, { s with now := limit, desk := Clock.pass Desk.nextWake Desk.wake limit s.now s.desk })
  | .reaper interval =>
    (.none, { s with desk := { s.desk with reaper? := some ⟨interval, s.now⟩ } })
  | .stopReaper => (.none, { s with desk := { s.desk with reaper? := .none } })

/-- Performs a step, lets everything run that can, and collects the waits that ended. -/
def step (s : RegistrySession) (next : Step) : Answer × List Ended × RegistrySession :=
  let (answer, s) := s.perform next
  let desk := s.desk.wake s.now
  (answer, desk.ended, { s with desk := { desk with ended := [] } })

/-- One step of a session: what it was answered, the waits that ended, and where it left the session. -/
structure Event where
  step : Step
  answer : Answer
  ended : List Ended
  after : RegistrySession

def event (s : RegistrySession) (next : Step) : Event :=
  ⟨next, (s.step next).1, (s.step next).2.1, (s.step next).2.2⟩

def after (s : RegistrySession) (steps : List Step) : RegistrySession :=
  steps.foldl (fun s next => (s.step next).2.2) s

def events (s : RegistrySession) : List Step → List Event
  | [] => []
  | next :: steps => s.event next :: events (s.step next).2.2 steps

end RegistrySession

end SoapRelay
