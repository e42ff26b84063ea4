import Mathlib.Logic.Function.Basic
import SoapRelay.Registry.Desk

/-!
# Operations on a registry in any order

A hall is a registry with the tickets that are out, each kept by its caller under a handle. At any
moment anyone may register a call, start to wait, look for the end of a wait, go away, resolve, cancel
or sweep, and time may pass. Nothing is said about who comes first.
-/

namespace SoapRelay

/-- What a caller keeps a ticket under: the id that it is for and a tag of the caller's own. -/
structure Handle where
  id : CallId
  tag : Nat
  deriving DecidableEq

structure Hold where
  ticket : Ticket
  /-- When the caller stops waiting, if it has started to wait. -/
  until? : Option Nat
  deriving DecidableEq

structure Hall where
  now : Nat
  registry : Registry
  holds : Handle → Option Hold

namespace Hall

def start (shards : Nat) (hash : String → UInt64) : Hall := ⟨0, .create shards hash, fun _ => none⟩

inductive Op where
  | register (handle : Handle) (deadline : Nat)
  | wait (handle : Handle) (until? : Option Nat)
  | look (handle : Handle)
  | drop (handle : Handle)
  | resolve (id reply : String)
  | cancel (id : String)
  | sweep
  | pass (time : Nat)
  deriving DecidableEq

inductive Answer where
  | registered (ticket : Ticket)
  | duplicate
  | taken
  | unknown
  | waiting
  | told (ending : Ending)
  | flag (yes : Bool)
  | count (n : Nat)
  | none
  deriving DecidableEq

def withRegistry (x : Hall) (registry : Registry) : Hall := { x with registry }

def withHold (x : Hall) (handle : Handle) (hold? : Option Hold) : Hall :=
  { x with holds := Function.update x.holds handle hold? }

def register (x : Hall) (handle : Handle) (deadline : Nat) : Answer × Hall :=
  match x.holds handle with
  | some _ => (.taken, x)
  | none =>
    match x.registry.register x.now handle.id deadline with
    | (none, r) => (.duplicate, x.withRegistry r)
    | (some ticket, r) => (.registered ticket, (x.withRegistry r).withHold handle (some ⟨ticket, none⟩))

def wait (x : Hall) (handle : Handle) (until? : Option Nat) : Answer × Hall :=
  match x.holds handle with
  | some ⟨ticket, none⟩ =>
    (.waiting, x.withHold handle (some ⟨ticket, some (ticket.limit (until?.getD ticket.deadline))⟩))
  | _ => (.unknown, x)

def look (x : Hall) (handle : Handle) : Answer × Hall :=
  match x.holds handle with
  | some ⟨ticket, some limit⟩ =>
    match x.registry.await ticket limit x.now with
    | (some ending, r) => (.told ending, (x.withRegistry r).withHold handle none)
    | (none, r) => (.waiting, x.withRegistry r)
  | _ => (.unknown, x)

def drop (x : Hall) (handle : Handle) : Answer × Hall :=
  match x.holds handle with
  | some hold => (.none, (x.withRegistry (x.registry.release hold.ticket)).withHold handle none)
  | none => (.unknown, x)

def step (x : Hall) : Op → Answer × Hall
  | .register handle deadline => x.register handle deadline
  | .wait handle until? => x.wait handle until?
  | .look handle => x.look handle
  | .drop handle => x.drop handle
  | .resolve id reply => (x.registry.resolve x.now id reply).map .flag x.withRegistry
  | .cancel id => (x.registry.cancel id).map .flag x.withRegistry
  | .sweep => (x.registry.sweep x.now).map .count x.withRegistry
  | .pass time => (.none, { x with now := x.now + time })

/-- One operation of a run, with the hall before and after it. -/
structure Event where
  before : Hall
  op : Op
  answer : Answer
  after : Hall

def event (x : Hall) (op : Op) : Event :=
  ⟨x, op, (x.step op).1, (x.step op).2⟩

def after (x : Hall) (ops : List Op) : Hall :=
  ops.foldl (fun x op => (x.step op).2) x

def events (x : Hall) : List Op → List Event
  | [] => []
  | op :: ops => x.event op :: events (x.step op).2 ops

end Hall

end SoapRelay
