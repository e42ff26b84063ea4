import SoapRelay.Front

/-!
# Runs of the client side alone

Steps on the client side with nobody on the other side of the bus: requests are drained from their
topic, and replies are handed to the handler of the replies topic one by one.
-/

namespace SoapRelay

structure ClientSession where
  front : Front
  scene : Scene Traffic

namespace ClientSession

def start (client : Client) (endpoint : Endpoint) (hash : String → UInt64) : ClientSession :=
  ⟨.create client endpoint, ⟨0, .empty, false, .start hash⟩⟩

inductive Step where
  | forward (name : String) (request : ForwardRequest)
  | http (name : String) (call : InboundCall)
  | message (text : String)
  | cancel (id : String)
  | abort (name : String)
  | sleep (time : Nat)
  | evict
  | close

inductive Answer where
  | done
  | handled (outcome : Outcome)
  | flag (yes : Bool)
  | count (n : Nat)

def wakeDesk (now : Nat) (s : Scene Traffic) : Scene Traffic :=
  { s with now, env := { s.env with desk := s.env.desk.wake now } }

def withRegistry (s : Scene Traffic) (r : Registry) : Scene Traffic :=
  s.withEnv (s.env.withRegistry r)

def perform (s : ClientSession) : Step → Answer × ClientSession
  | .forward name r =>
    let (front, scene) := s.front.call s.scene name r
    (.done, ⟨front, scene⟩)
  | .http name c =>
    let (front, scene) := s.front.serve s.scene name c
    (.done, ⟨front, scene⟩)
  | .message text =>
    let (scene, o) := Replies.handle s.front.client.signer s.scene text
    (.handled o, { s with scene })
  | .cancel id =>
    let (yes, r) := s.scene.env.desk.registry.cancel id
    (.flag yes, { s with scene := withRegistry s.scene r })
  | .abort name => (.done, { s with scene := s.front.abandon s.scene name })
  | .sleep time =>
    let limit := s.scene.now + time
    let scene := Clock.pass (·.env.desk.nextWake) wakeDesk limit s.scene.now s.scene
    (.done, { s with scene := { scene with now := limit } })
  | .evict =>
    let (n, r) := s.scene.env.desk.registry.sweep s.scene.now
    (.count n, { s with scene := withRegistry s.scene r })
  | .close =>
    let topic := s.front.client.requestsTopic
    match s.scene.bus.subscribe? topic with
    | some bus => (.flag true, { s with scene := s.scene.withBus (bus.unsubscribe topic) })
    | none => (.flag false, s)

structure Shown where
  answer : Answer
  finished : List FinishedCall
  requests : List String

def step (s : ClientSession) (next : Step) : Shown × ClientSession :=
  let (answer, s) := s.perform next
  let scene := wakeDesk s.scene.now s.scene
  let (finished, front, scene) := s.front.collect scene
  let (requests, bus) := scene.bus.drain s.front.client.requestsTopic
  (⟨answer, finished, requests⟩, ⟨front, scene.withBus bus⟩)

end ClientSession

end SoapRelay
