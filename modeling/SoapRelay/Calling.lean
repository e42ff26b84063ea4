import SoapRelay.Client
import SoapRelay.Registry.Hall

/-!
# One call among others

A call of the client side from its beginning to its end, with everything else that may happen at its registry
meanwhile. The caller places the call, publishes its request and looks for its ending until its deadline, and at any
moment between it may go away. Between any two of these others register, wait, look, go away, resolve, cancel and
sweep as they like, time passes, and the bus changes.
-/

namespace SoapRelay

namespace Calling

/-- How far a call has come. -/
inductive Stage where
  | called
  | publishing (placed : Client.Placed)
  | waiting (ticket : Ticket)
  | returned (result : Except ForwardError String)
  /-- The caller went away. -/
  | dropped

def Stage.isOver : Stage → Bool
  | .returned _ => true
  | .dropped => true
  | _ => false

end Calling

structure Calling where
  client : Client
  /-- What the caller keeps its ticket under. -/
  own : Handle
  request : ForwardRequest
  scene : Scene Traffic
  /-- The tickets that are out, the caller's among them. -/
  holds : Handle → Option Hold
  stage : Calling.Stage
  /-- The ticket that the caller was given. -/
  ticket? : Option Ticket

def Hall.Op.handle? : Hall.Op → Option Handle
  | .register h _ => some h
  | .wait h _ => some h
  | .look h => some h
  | .drop h => some h
  | _ => none

namespace Calling

def start (client : Client) (own : Handle) (request : ForwardRequest) (shards : Nat) (hash : String → UInt64) :
    Calling where
  client
  own
  request
  scene := ⟨0, .empty, false, ⟨.create (.create shards hash), [], []⟩⟩
  holds _ := none
  stage := .called
  ticket? := none

def registry (x : Calling) : Registry := x.scene.env.desk.registry

/-- The registry with the tickets that are out. -/
def hall (x : Calling) : Hall := ⟨x.scene.now, x.registry, x.holds⟩

def withRegistry (x : Calling) (registry : Registry) : Calling :=
  { x with scene := x.scene.withEnv (x.scene.env.withRegistry registry) }

def withOwn (x : Calling) (hold? : Option Hold) : Calling :=
  { x with holds := Function.update x.holds x.own hold? }

def place (x : Calling) : Calling :=
  match x.stage with
  | .called =>
    match x.client.place x.scene x.own.id x.request with
    | (scene, .ok p) =>
      { x.withOwn (some ⟨p.ticket, none⟩) with scene, stage := .publishing p, ticket? := some p.ticket }
    | (scene, .error e) => { x with scene, stage := .returned (.error e) }
  | _ => x

def publish (x : Calling) : Calling :=
  match x.stage with
  | .publishing p =>
    match x.client.publish x.scene p with
    | (scene, .ok t) => { x.withOwn (some ⟨t, some (t.limit t.deadline)⟩) with scene, stage := .waiting t }
    | (scene, .error e) => { x.withOwn none with scene, stage := .returned (.error e) }
  | _ => x

def look (x : Calling) : Calling :=
  match x.stage with
  | .waiting t =>
    match x.registry.await t (t.limit t.deadline) x.scene.now with
    | (some ending, r) => { (x.withRegistry r).withOwn none with stage := .returned ending.forwarded }
    | (none, r) => x.withRegistry r
  | _ => x

/-- The caller goes away, wherever its call stands. -/
def drop (x : Calling) : Calling :=
  match x.stage with
  | .called => { x with stage := .dropped }
  | .publishing p => { (x.withRegistry (x.registry.release p.ticket)).withOwn none with stage := .dropped }
  | .waiting t => { (x.withRegistry (x.registry.release t)).withOwn none with stage := .dropped }
  | _ => x

/-- Someone else does something. -/
def other (x : Calling) (op : Hall.Op) : Calling :=
  if op.handle? = some x.own then x
  else
    let y := (x.hall.step op).2
    { x with
      scene := { x.scene with now := y.now, env := x.scene.env.withRegistry y.registry }
      holds := y.holds }

inductive Act where
  | place
  | publish
  | look
  | drop
  | other (op : Hall.Op)
  | bus (bus : Bus)

/-- Whether an act is the caller's own. -/
def Act.own : Act → Bool
  | .other _ => false
  | .bus _ => false
  | _ => true

def step (x : Calling) : Act → Calling
  | .place => x.place
  | .publish => x.publish
  | .look => x.look
  | .drop => x.drop
  | .other op => x.other op
  | .bus bus => { x with scene := x.scene.withBus bus }

def after (x : Calling) (acts : List Act) : Calling :=
  acts.foldl step x

end Calling

end SoapRelay
