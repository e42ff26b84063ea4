import SoapRelay.Consumer.Worker
import SoapRelay.Front
import SoapRelay.Platform

/-!
# Both sides over one bus

The client side, the platform side and the consumers between them: one for the requests, one for
the replies, and one for the dead letters of each, which logs and drops them. A consumer whose topic
is consumed already is left out. While time stands still, callers look for their endings first and
then the consumers work until nothing is left to do.
-/

namespace SoapRelay

inductive Role where
  | deadLetters
  | requests
  | replies
  deriving DecidableEq, Repr

def Role.handler (client : Client) (platform : Platform) : Role → Handler Traffic CallWork
  | .deadLetters => .discard _ _
  | .requests => platform.handler
  | .replies => Replies.handler client.signer

structure Station where
  role : Role
  worker : Worker CallWork

def Station.busy (s : Scene Traffic) (t : Station) : Bool :=
  (t.worker.take? s).isSome || t.worker.inFlight.any (·.canGo s.now s.stopping)

structure Exchange where
  front : Front
  platform : Platform
  scene : Scene Traffic
  stations : List Station

namespace Exchange

/-- The bus part of the settings: both topics and how they are consumed. -/
structure Topics where
  requests : String
  replies : String
  suffix : String
  concurrency : Nat
  policy : RetryPolicy
  deriving DecidableEq, Repr

def Topics.consumer (t : Topics) (topic : String) : Consumer :=
  ⟨topic, t.suffix, t.concurrency, t.policy⟩

/-- The consumers in the order in which they subscribe. -/
def Topics.consumers (t : Topics) : List (Role × Consumer) :=
  let requests := t.consumer t.requests
  let replies := t.consumer t.replies
  [(.deadLetters, t.consumer requests.deadLetterTopic), (.deadLetters, t.consumer replies.deadLetterTopic),
    (.requests, requests), (.replies, replies)]

/-- Subscribes consumers in turn; those whose topic is taken are left out. -/
def enlist : Bus → List (Role × Consumer) → Bus × List Station
  | bus, [] => (bus, [])
  | bus, (role, c) :: rest =>
    match bus.subscribe? c.topic with
    | some bus =>
      let (bus, stations) := enlist bus rest
      (bus, ⟨role, .create c⟩ :: stations)
    | none => enlist bus rest

/-- The interval of the reaper: one second. -/
def sweepInterval : Nat := 1000

/-- The first consumer that has something to do works until it has not. -/
def workOnce (x : Exchange) : Option Exchange :=
  match x.stations.findIdx? (·.busy x.scene) with
  | none => none
  | some i =>
    match x.stations[i]? with
    | none => none
    | some t =>
      let (scene, worker) := t.worker.settle (t.role.handler x.front.client x.platform) Worker.rounds x.scene
      some { x with scene, stations := x.stations.set i { t with worker } }

def work : Nat → Exchange → Exchange
  | 0, x => x
  | rounds + 1, x =>
    match x.workOnce with
    | some x => work rounds x
    | none => x

def settleDesk (x : Exchange) : Exchange :=
  let desk := x.scene.env.desk.wake x.scene.now
  { x with scene := x.scene.withEnv { x.scene.env with desk } }

/-- Lets everything run that can run without time passing. -/
def settle (x : Exchange) : Exchange :=
  (work Worker.rounds x.settleDesk).settleDesk

def wake (now : Nat) (x : Exchange) : Exchange :=
  { x with scene := { x.scene with now } }.settle

def nextWake (x : Exchange) : Option Nat :=
  Clock.earliest (x.scene.env.desk.nextWake.toList ++ x.stations.filterMap (·.worker.nextWake))

def start (front : Front) (platform : Platform) (topics : Topics) (hash : String → UInt64) : Exchange :=
  let (bus, stations) := enlist .empty topics.consumers
  let env := Traffic.start hash
  let desk := { env.desk with reaper? := some ⟨sweepInterval, 0⟩ }
  ({ front, platform, scene := ⟨0, bus, false, { env with desk }⟩, stations } : Exchange).settle

def stats (x : Exchange) (role : Role) : ConsumerStats :=
  ((x.stations.filter (·.role = role)).map (·.worker.stats)).foldl .add .zero

def stopped (x : Exchange) : Bool :=
  x.stations.all (·.worker.stopped)

def sleep (x : Exchange) (time : Nat) : Exchange :=
  let limit := x.scene.now + time
  let x := Clock.pass nextWake wake limit x.scene.now x
  { x with scene := { x.scene with now := limit } }

/-- Tells the consumers to stop, ends the sweeps and waits for the consumers. -/
def shutdown (x : Exchange) : Exchange :=
  let desk := { x.scene.env.desk with reaper? := none }
  let x := ({ x with scene := { x.scene with stopping := true, env := { x.scene.env with desk } } } : Exchange).settle
  let inFlight := (x.stations.map (·.worker.inFlight.length)).foldl (· + ·) 0
  (Clock.runUntil stopped nextWake wake (inFlight + desk.waiters.length + 1) x.scene.now x).2

end Exchange

/-! ### Runs -/

structure ExchangeSession where
  exchange : Exchange
  running : Bool

namespace ExchangeSession

inductive Step where
  | forward (name : String) (request : ForwardRequest)
  | http (name : String) (call : InboundCall)
  | abort (name : String)
  | sleep (time : Nat)
  | publish (topic message : String)
  | shutdown

inductive Answer where
  | done
  | accepted
  | closed (topic : String)
  | unknown

def perform (s : ExchangeSession) : Step → Answer × ExchangeSession
  | .forward name r =>
    let (front, scene) := s.exchange.front.call s.exchange.scene name r
    (.done, { s with exchange := { s.exchange with front, scene } })
  | .http name call =>
    let (front, scene) := s.exchange.front.serve s.exchange.scene name call
    (.done, { s with exchange := { s.exchange with front, scene } })
  | .abort name =>
    let scene := s.exchange.front.abandon s.exchange.scene name
    (.done, { s with exchange := { s.exchange with scene } })
  | .sleep time => (.done, { s with exchange := s.exchange.sleep time })
  | .publish topic message =>
    match s.exchange.scene.bus.publish? topic message with
    | some bus =>
      (.accepted, { s with exchange := { s.exchange with scene := s.exchange.scene.withBus bus } })
    | none => (.closed topic, s)
  | .shutdown =>
    if s.running then (.done, ⟨s.exchange.shutdown, false⟩) else (.unknown, s)

structure Shown where
  answer : Answer
  finished : List FinishedCall
  calls : List OutboundCall

def step (s : ExchangeSession) (next : Step) : Shown × ExchangeSession :=
  let before := s.exchange.scene.env.calls.length
  let (answer, s) := s.perform next
  let x := s.exchange.settle
  let (finished, front, scene) := x.front.collect x.scene
  (⟨answer, finished, scene.env.calls.drop before⟩, { s with exchange := { x with front, scene } })

end ExchangeSession

end SoapRelay
