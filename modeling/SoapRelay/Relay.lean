import SoapRelay.Exchange

/-!
# Both sides in any order

The client side, the platform side and their consumers over one bus, where at any moment any of them
may act: a call is placed and, some time later, published, a caller looks for its ending or goes away,
a consumer takes a message or goes on with one, a foreign message comes in, time passes. Nothing is
said about who comes first.
-/

namespace SoapRelay

/-- A call that was made to the client side, under a name of its own. -/
structure ForwardedCall where
  name : String
  id : CallId
  request : ForwardRequest
  /-- The serial of its ticket, if it was registered. -/
  serial? : Option Nat
  deriving DecidableEq

structure Relay where
  client : Client
  platform : Platform
  scene : Scene Traffic
  stations : List Station
  made : List ForwardedCall
  /-- Calls that are registered but not published yet, with their names. -/
  placed : List (String × Client.Placed)

namespace Relay

def start (client : Client) (platform : Platform) (consumers : List (Role × Consumer)) (hash : String → UInt64) :
    Relay where
  client
  platform
  scene := ⟨0, (Exchange.enlist .empty consumers).1, false, .start hash⟩
  stations := (Exchange.enlist .empty consumers).2
  made := []
  placed := []

def desk (x : Relay) : Desk := x.scene.env.desk

def withDesk (x : Relay) (desk : Desk) : Relay :=
  { x with scene := x.scene.withEnv { x.scene.env with desk } }

def withRegistry (x : Relay) (registry : Registry) : Relay :=
  { x with scene := x.scene.withEnv (x.scene.env.withRegistry registry) }

def place (x : Relay) (name : String) (id : CallId) (request : ForwardRequest) : Relay :=
  match x.client.place x.scene id request with
  | (scene, .ok p) =>
    { x with
      scene
      made := x.made ++ [⟨name, id, request, some p.ticket.serial⟩]
      placed := x.placed ++ [(name, p)] }
  | (scene, .error _) => { x with scene, made := x.made ++ [⟨name, id, request, none⟩] }

def publish (x : Relay) (i : Nat) : Relay :=
  match x.placed[i]? with
  | some (name, p) =>
    let (scene, result) := x.client.publish x.scene p
    let x : Relay := { x with scene, placed := x.placed.eraseIdx i }
    match result with
    | .ok ticket => x.withDesk (x.desk.enter name ticket ticket.deadline)
    | .error _ => x
  | none => x

/-- A caller goes away before its request is published. -/
def withdraw (x : Relay) (i : Nat) : Relay :=
  match x.placed[i]? with
  | some (_, p) =>
    { x with placed := x.placed.eraseIdx i }.withRegistry (x.desk.registry.release p.ticket)
  | none => x

def look (x : Relay) (w : Waiter) : Relay :=
  if w ∈ x.desk.waiters then
    x.withDesk (Desk.look x.scene.now { x.desk with waiters := x.desk.waiters.erase w } w)
  else x

def leave (x : Relay) (serial : Nat) : Relay :=
  match x.desk.abandon? serial with
  | some desk => x.withDesk desk
  | none => x

/-- A consumer takes a message, or gives up its subscription. -/
def take (x : Relay) (i : Nat) : Relay :=
  match x.stations[i]? with
  | some t =>
    match t.worker.take? x.scene with
    | some (scene, worker) => { x with scene, stations := x.stations.set i { t with worker } }
    | none => x
  | none => x

def go (x : Relay) (i k : Nat) : Relay :=
  match x.stations[i]? with
  | some t =>
    match t.worker.goAt? (t.role.handler x.client x.platform) x.scene k with
    | some (scene, worker, _) => { x with scene, stations := x.stations.set i { t with worker } }
    | none => x
  | none => x

def accept (x : Relay) (topic message : String) : Relay :=
  match x.scene.bus.publish? topic message with
  | some bus => { x with scene := x.scene.withBus bus }
  | none => x

/-- What anyone may do at any moment. -/
inductive Act where
  | place (name : String) (id : CallId) (request : ForwardRequest)
  | publish (i : Nat)
  | withdraw (i : Nat)
  | look (w : Waiter)
  | leave (serial : Nat)
  | sweep
  | cancel (id : String)
  /-- The reaper is set to sweep at some times, or never. -/
  | reaper (reaper? : Option Reaper)
  | collect
  | take (i : Nat)
  | go (i k : Nat)
  | accept (topic message : String)
  | pass (time : Nat)
  | stop

def step (x : Relay) : Act → Relay
  | .place name id request => x.place name id request
  | .publish i => x.publish i
  | .withdraw i => x.withdraw i
  | .look w => x.look w
  | .leave serial => x.leave serial
  | .sweep => x.withRegistry (x.desk.registry.sweep x.scene.now).2
  | .cancel id => x.withRegistry (x.desk.registry.cancel id).2
  | .reaper reaper? => x.withDesk { x.desk with reaper? }
  | .collect => x.withDesk { x.desk with ended := [] }
  | .take i => x.take i
  | .go i k => x.go i k
  | .accept topic message => x.accept topic message
  | .pass time => { x with scene := { x.scene with now := x.scene.now + time } }
  | .stop => { x with scene := { x.scene with stopping := true } }

def after (x : Relay) (acts : List Act) : Relay :=
  acts.foldl step x

/-! ### Runs without forgery -/

/-- Either side only takes an envelope from a message for properly signed if that content was signed
with that token. -/
structure Unforged (x : Relay) (message : String) : Prop where
  request : ∀ r, Request.decode message = .ok r → x.platform.signer.verify r = true →
    (r.unsigned, r.signature) ∈ x.scene.env.signed
  reply : ∀ r, Reply.decode message = .ok r → x.client.signer.verify r = true →
    (r.unsigned, r.signature) ∈ x.scene.env.signed

/-- Calls are made under names and ids of their own, and messages that are handled are not forged. -/
def Admits (x : Relay) : Act → Prop
  | .place name id _ => ∀ c ∈ x.made, c.name ≠ name ∧ c.id ≠ id
  | .go i k => ∀ t d, x.stations[i]? = some t → t.worker.inFlight[k]? = some d → x.Unforged d.message
  | _ => True

inductive Reachable (start : Relay) : Relay → Prop where
  | start : Reachable start start
  | step {x} (act : Act) (admitted : x.Admits act) : Reachable start x → Reachable start (x.step act)

end Relay

end SoapRelay
