import SoapRelay.Consumer.Delivery

/-!
# One message from beginning to end

The delivery of a single message while nothing else happens: time goes on to the end of each wait.
Consumers may be told to stop at a given time.
-/

namespace SoapRelay

namespace Scene

variable {σ : Type}

def atTime (s : Scene σ) (stopAt? : Option Nat) (time : Nat) : Scene σ :=
  let stop := match stopAt? with
    | some t => t ≤ time
    | none => false
  { s with now := max s.now time, stopping := s.stopping || stop }

end Scene

namespace Delivery

variable {σ κ : Type}

/-- When something next happens to a delivery: its own wait ends, or consumers are to stop. -/
def nextMoment (stopAt? : Option Nat) (s : Scene σ) (d : Delivery κ) : Nat :=
  match d.stage, stopAt? with
  | .backingOff u, some t => if s.stopping then u else min u t
  | _, _ => d.wakeAt?.getD s.now

/-- Lets a delivery go on until it ends, for a bounded number of moments. -/
def runFor (h : Handler σ κ) (c : Consumer) (stopAt? : Option Nat) :
    (moments : Nat) → Scene σ → ConsumerStats → Delivery κ → Scene σ × ConsumerStats × Disposition
  | 0, s, n, _ => (s, n, .abandoned)
  | moments + 1, s, n, d =>
    match d.go h c s n with
    | (s, n, .ended how) => (s, n, how)
    | (s, n, .going d) => runFor h c stopAt? moments (s.atTime stopAt? (d.nextMoment stopAt? s)) n d

/-- The moments that the delivery of a message can take: each attempt waits at most twice. -/
def moments (c : Consumer) : Nat :=
  2 * max 1 c.policy.attempts + 1

end Delivery

namespace Consumer

variable {σ κ : Type}

def process (c : Consumer) (h : Handler σ κ) (stopAt? : Option Nat) (s : Scene σ)
    (n : ConsumerStats) (message : String) : Scene σ × ConsumerStats × Disposition :=
  Delivery.runFor h c stopAt? (Delivery.moments c) (s.atTime stopAt? s.now) n (.fresh c message)

end Consumer

end SoapRelay
