import SoapRelay.Consumer.Process
import SoapRelay.Consumer.Worker

/-!
# Consumers under a script

A handler that plays a script: each text has entries that are played one a call, and after the last
one it is handled with success. What happens is recorded as events.
-/

namespace SoapRelay

structure ScriptEntry where
  outcome : Outcome
  after : Nat
  deriving DecidableEq, Repr

inductive EventKind where
  | processed
  | failed
  | start
  deriving DecidableEq, Repr

namespace EventKind

/-- The order of events of one text at one time: ends come before starts. -/
def rank : EventKind → Nat
  | .failed => 0
  | .processed => 0
  | .start => 1

def ofOutcome : Outcome → EventKind
  | .processed => .processed
  | _ => .failed

end EventKind

structure Event where
  at_ : Nat
  text : String
  kind : EventKind
  deriving DecidableEq, Repr

/-- Whether an event comes first in the record, by time and then by text. -/
def Event.before (a b : Event) : Bool :=
  if a.at_ ≠ b.at_ then a.at_ < b.at_
  else if a.text ≠ b.text then a.text < b.text
  else a.kind.rank ≤ b.kind.rank

structure Script where
  entries : Table (List ScriptEntry)
  events : List Event

namespace Script

/-- Work under way: the text and what will come of it. -/
structure Work where
  text : String
  outcome : Outcome

def record (s : Scene Script) (text : String) (kind : EventKind) : Scene Script :=
  s.withEnv { s.env with events := s.env.events ++ [⟨s.now, text, kind⟩] }

def nextEntry (script : Script) (text : String) : ScriptEntry × Script :=
  match script.entries.get? text with
  | some (e :: rest) => (e, { script with entries := script.entries.put text rest })
  | _ => (⟨.processed, 0⟩, script)

def finish (s : Scene Script) (w : Work) : Scene Script × Outcome :=
  (record s w.text (.ofOutcome w.outcome), w.outcome)

def start (s : Scene Script) (text : String) : Scene Script × Progress Work :=
  let s := record s text .start
  let (e, script) := s.env.nextEntry text
  let s := s.withEnv script
  if e.after = 0 then
    let (s, o) := finish s ⟨text, e.outcome⟩
    (s, .done o)
  else (s, .waiting ⟨text, e.outcome⟩ (s.now + e.after))

def handler : Handler Script Work := ⟨start, finish⟩

end Script

structure ConsumerTrial where
  consumer : Consumer
  handler : Handler Script Script.Work
  entries : Table (List ScriptEntry)
  closed : Bool
  /-- Messages and the times they are published at. -/
  messages : List (Nat × String)
  stopAt? : Option Nat

namespace ConsumerTrial

def opening (t : ConsumerTrial) : Scene Script where
  now := 0
  bus := if t.closed then Bus.empty.unsubscribe t.consumer.deadLetterTopic else .empty
  stopping := false
  env := ⟨t.entries, []⟩

/-- Handles the messages one after the other; shows the time and the counters after each. -/
def handleInTurn (t : ConsumerTrial) :
    Scene Script → ConsumerStats → List String → List (Nat × ConsumerStats) × Scene Script × ConsumerStats
  | s, n, [] => ([], s, n)
  | s, n, m :: rest =>
    let (s, n, _) := t.consumer.process t.handler t.stopAt? s n m
    let (shown, last) := handleInTurn t s n rest
    ((s.now, n) :: shown, last)

structure Feed where
  scene : Scene Script
  worker : Worker Script.Work
  coming : List (Nat × String)

/-- Publishes the messages in order up to the first one whose time has not come. -/
def publishDue (topic : String) (s : Scene Script) : List (Nat × String) → Scene Script × List (Nat × String)
  | [] => (s, [])
  | (time, m) :: rest =>
    if time ≤ s.now then
      publishDue topic (match s.bus.publish? topic m with | some bus => s.withBus bus | none => s) rest
    else (s, (time, m) :: rest)

def Feed.settle (t : ConsumerTrial) (f : Feed) : Feed :=
  let (scene, coming) := publishDue t.consumer.topic f.scene f.coming
  let (scene, worker) := f.worker.settle t.handler Worker.rounds scene
  ⟨scene, worker, coming⟩

def Feed.nextWake (t : ConsumerTrial) (f : Feed) : Option Nat :=
  let stop := if f.scene.stopping then none else t.stopAt?
  Clock.earliest (f.worker.nextWake.toList ++ (f.coming.head?.map (·.1)).toList ++ stop.toList)

def Feed.wake (t : ConsumerTrial) (now : Nat) (f : Feed) : Feed :=
  ({ f with scene := f.scene.atTime t.stopAt? now } : Feed).settle t

/-- Wake times that a run can have. -/
def wakes (t : ConsumerTrial) : Nat :=
  (t.messages.length + 1) * (2 * max 1 t.consumer.policy.attempts + 2) + 2

/-- Runs a worker on the topic until it stops; the time comes with the end. -/
def runWorker (t : ConsumerTrial) : Nat × Feed :=
  let s := t.opening
  let bus := (s.bus.subscribe? t.consumer.topic).getD s.bus
  let f : Feed := ⟨s.withBus bus, .create t.consumer, t.messages⟩
  Clock.runUntil (·.worker.stopped) (Feed.nextWake t) (Feed.wake t) t.wakes 0 (f.settle t)

end ConsumerTrial

end SoapRelay
