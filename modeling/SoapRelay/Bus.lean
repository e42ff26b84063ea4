import SoapRelay.Table

/-!
# The message bus

Each topic is a queue with at most one subscription ever. Messages wait until they are taken by the
subscriber or, before there is one, drained. A topic whose subscriber is gone takes no more
messages.
-/

namespace SoapRelay

inductive Subscription where
  | free
  | held
  | gone
  deriving DecidableEq, Repr

structure Topic where
  /-- Accepted messages that nobody has taken, oldest first. -/
  waiting : List String
  subscription : Subscription
  published : Nat
  taken : Nat
  deriving DecidableEq, Repr

namespace Topic

def fresh : Topic := ⟨[], .free, 0, 0⟩

def backlog (t : Topic) : Nat :=
  t.published - t.taken

end Topic

structure Bus where
  topics : Table Topic

namespace Bus

def empty : Bus := ⟨.empty⟩

def topic (b : Bus) (name : String) : Topic :=
  (b.topics.get? name).getD .fresh

def put (b : Bus) (name : String) (t : Topic) : Bus :=
  ⟨b.topics.put name t⟩

theorem topic_put (b : Bus) (name other : String) (t : Topic) :
    (b.put name t).topic other = if other = name then t else b.topic other := by
  simp only [topic, put, Table.get?_put]
  split <;> rfl

/-- The error of publishing to a topic without a future. -/
def closedMessage (name : String) : String :=
  "topic " ++ name ++ " is closed"

/-- The bus with a message added, unless the topic takes none. -/
def publish? (b : Bus) (name message : String) : Option Bus :=
  let t := b.topic name
  match t.subscription with
  | .gone => none
  | _ => some (b.put name { t with waiting := t.waiting ++ [message], published := t.published + 1 })

/-- The bus with the topic subscribed to, unless that has happened before. -/
def subscribe? (b : Bus) (name : String) : Option Bus :=
  let t := b.topic name
  match t.subscription with
  | .free => some (b.put name { t with subscription := .held })
  | _ => none

def receive? (b : Bus) (name : String) : Option (String × Bus) :=
  let t := b.topic name
  match t.subscription, t.waiting with
  | .held, m :: rest => some (m, b.put name { t with waiting := rest, taken := t.taken + 1 })
  | _, _ => none

/-- The subscriber goes, and with it what was waiting. -/
def unsubscribe (b : Bus) (name : String) : Bus :=
  b.put name { b.topic name with waiting := [], subscription := .gone }

/-- Takes all messages of a topic that was never subscribed to. -/
def drain (b : Bus) (name : String) : List String × Bus :=
  let t := b.topic name
  match t.subscription with
  | .free => (t.waiting, b.put name { t with waiting := [], taken := t.taken + t.waiting.length })
  | _ => ([], b)

end Bus

/-! ### Runs over named subscriptions -/

/-- A bus, and the topics of subscriptions by the names they are kept under. -/
structure BusSession where
  bus : Bus
  streams : Table String

namespace BusSession

def start : BusSession := ⟨.empty, .empty⟩

inductive Step where
  | publish (message : String)
  | subscribe (name : String)
  | receive (name : String)
  | drop (name : String)
  | drain
  | look
  deriving DecidableEq, Repr

inductive Answer where
  | accepted
  | closed
  | flag (yes : Bool)
  | message (text : String)
  | nothingWaiting
  | unknown
  | messages (texts : List String)
  | none
  deriving DecidableEq, Repr

def release (s : BusSession) (name : String) : BusSession :=
  match s.streams.get? name with
  | some topic => ⟨s.bus.unsubscribe topic, s.streams.erase name⟩
  | .none => s

/-- One step on a topic. A subscription that takes the name of an older one replaces it. -/
def step (s : BusSession) (topic : String) : Step → Answer × BusSession
  | .publish message =>
    match s.bus.publish? topic message with
    | some bus => (.accepted, { s with bus })
    | .none => (.closed, s)
  | .subscribe name =>
    match s.bus.subscribe? topic with
    | some bus =>
      let s := ({ s with bus } : BusSession).release name
      (.flag true, { s with streams := s.streams.put name topic })
    | .none => (.flag false, s)
  | .receive name =>
    match s.streams.get? name with
    | .none => (.unknown, s)
    | some source =>
      match s.bus.receive? source with
      | some (message, bus) => (.message message, { s with bus })
      | .none => (.nothingWaiting, s)
  | .drop name => (.flag (s.streams.contains name), s.release name)
  | .drain =>
    let (messages, bus) := s.bus.drain topic
    (.messages messages, { s with bus })
  | .look => (.none, s)

end BusSession

end SoapRelay
