import SoapRelay.Clock
import SoapRelay.Registry.Basic

/-!
# Callers that wait at a registry

A desk is a registry with the callers that wait there and, at times, a reaper that sweeps it at
regular intervals. A waiting caller looks for its ending whenever the desk is settled.
-/

namespace SoapRelay

/-- When a caller that would wait until some time stops waiting. -/
def Ticket.limit (t : Ticket) (until_ : Nat) : Nat :=
  min until_ t.deadline

structure Waiter where
  name : String
  ticket : Ticket
  until_ : Nat
  deriving DecidableEq, Repr

structure Ended where
  name : String
  ending : Ending
  at_ : Nat
  deriving DecidableEq, Repr

structure Reaper where
  interval : Nat
  next : Nat
  deriving DecidableEq, Repr

structure Desk where
  registry : Registry
  waiters : List Waiter
  /-- Waits that ended, in order, until they are collected. -/
  ended : List Ended
  reaper? : Option Reaper

namespace Desk

def create (registry : Registry) : Desk := ⟨registry, [], [], none⟩

/-- A caller waits for its ending, but no longer than its ticket allows. -/
def enter (d : Desk) (name : String) (ticket : Ticket) (until_ : Nat) : Desk :=
  { d with waiters := d.waiters ++ [⟨name, ticket, ticket.limit until_⟩] }

def look (now : Nat) (d : Desk) (w : Waiter) : Desk :=
  match d.registry.await w.ticket w.until_ now with
  | (some ending, registry) => { d with registry, ended := d.ended ++ [⟨w.name, ending, now⟩] }
  | (none, registry) => { d with registry, waiters := d.waiters ++ [w] }

def settle (d : Desk) (now : Nat) : Desk :=
  d.waiters.foldl (look now) { d with waiters := [] }

/-- The reaper sweeps if its time has come. -/
def reap (d : Desk) (now : Nat) : Desk :=
  match d.reaper? with
  | some r =>
    if r.next ≤ now then
      { d with registry := (d.registry.sweep now).2, reaper? := some { r with next := now + max 1 r.interval } }
    else d
  | none => d

def nextWake (d : Desk) : Option Nat :=
  Clock.earliest (d.waiters.map (·.until_) ++ (d.reaper?.map (·.next)).toList)

def wake (now : Nat) (d : Desk) : Desk :=
  (d.reap now).settle now

/-- The caller that waits with the ticket of a serial goes away. -/
def abandon? (d : Desk) (serial : Nat) : Option Desk :=
  match d.waiters.find? (·.ticket.serial == serial) with
  | some w =>
    some { d with
      registry := d.registry.release w.ticket
      waiters := d.waiters.filter (·.ticket.serial != serial) }
  | none => none

end Desk

end SoapRelay
