import SoapRelay.Clock
import SoapRelay.Consumer.Delivery

/-!
# A worker on a topic

A worker holds the subscription of its topic and takes messages from it in order, as long as fewer
are in flight than may be. When consumers are to stop it gives the subscription up the next time it
would take a message, and ends once nothing is in flight.
-/

namespace SoapRelay

structure Worker (κ : Type) where
  consumer : Consumer
  subscribed : Bool
  /-- Deliveries in the order in which they last became active. -/
  inFlight : List (Delivery κ)
  taken : Nat
  abandoned : Nat
  stats : ConsumerStats
  deriving DecidableEq

namespace Worker

variable {σ κ : Type}

def create (c : Consumer) : Worker κ := ⟨c, true, [], 0, 0, .zero⟩

def stopped (w : Worker κ) : Bool :=
  !w.subscribed && w.inFlight.isEmpty

/-- Takes the next message, or gives up the subscription. -/
def take? (s : Scene σ) (w : Worker κ) : Option (Scene σ × Worker κ) :=
  if w.subscribed && w.inFlight.length < w.consumer.limit then
    if s.stopping then
      some (s.withBus (s.bus.unsubscribe w.consumer.topic), { w with subscribed := false })
    else
      match s.bus.receive? w.consumer.topic with
      | some (message, bus) =>
        some (s.withBus bus,
          { w with inFlight := w.inFlight ++ [.fresh w.consumer message], taken := w.taken + 1 })
      | none => none
  else none

/-- Puts a delivery back behind the others, or counts it as ended. -/
def put (w : Worker κ) (others : List (Delivery κ)) (stats : ConsumerStats) : Turn κ → Worker κ
  | .going d => { w with inFlight := others ++ [d], stats }
  | .ended .abandoned => { w with inFlight := others, stats, abandoned := w.abandoned + 1 }
  | .ended _ => { w with inFlight := others, stats }

def goAt? (h : Handler σ κ) (s : Scene σ) (w : Worker κ) (i : Nat) : Option (Scene σ × Worker κ × Bool) :=
  match w.inFlight[i]? with
  | none => none
  | some d =>
    let (s, stats, turn) := d.go h w.consumer s w.stats
    let ended := match turn with
      | .going _ => false
      | .ended _ => true
    some (s, w.put (w.inFlight.eraseIdx i) stats turn, ended)

def goNext? (h : Handler σ κ) (s : Scene σ) (w : Worker κ) : Option (Scene σ × Worker κ × Bool) :=
  match w.inFlight.findIdx? (·.canGo s.now s.stopping) with
  | none => none
  | some i => w.goAt? h s i

/-- Lets deliveries go on until one ends or none has anything to do. -/
def goUntilEnded (h : Handler σ κ) : Nat → Scene σ → Worker κ → Scene σ × Worker κ × Bool
  | 0, s, w => (s, w, false)
  | fuel + 1, s, w =>
    match w.goNext? h s with
    | none => (s, w, false)
    | some (s, w, true) => (s, w, true)
    | some (s, w, false) => goUntilEnded h fuel s w

/-- The rounds that a worker makes at most without letting time pass. -/
def rounds : Nat := 100000

/-- Takes a message and lets deliveries go on, in turn, until there is nothing to do. -/
def settle (h : Handler σ κ) : Nat → Scene σ → Worker κ → Scene σ × Worker κ
  | 0, s, w => (s, w)
  | fuel + 1, s, w =>
    let (s, w, took) := match w.take? s with
      | some (s, w) => (s, w, true)
      | none => (s, w, false)
    let (s, w, ended) := goUntilEnded h rounds s w
    if took || ended then settle h fuel s w else (s, w)

def nextWake (w : Worker κ) : Option Nat :=
  Clock.earliest (w.inFlight.filterMap (·.wakeAt?))

end Worker

end SoapRelay
