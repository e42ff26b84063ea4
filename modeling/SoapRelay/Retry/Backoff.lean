/-!
# Redelivery of messages that failed for now

A policy bounds the attempts at a message and fixes the delay before each further one. A backoff
hands that delay out once it has passed, a fixed number of times. Nothing happens between polls: the
first poll after a delay was handed out starts the next one.
-/

namespace SoapRelay

structure Backoff where
  delay : Nat
  limit : Nat
  /-- How often the delay has been handed out. -/
  given : Nat
  /-- When the running delay ends. -/
  readyAt? : Option Nat
  deriving DecidableEq, Repr

inductive Backoff.Poll where
  | finished
  | pending (until_ : Nat)
  | delay (length : Nat)
  deriving DecidableEq, Repr

namespace Backoff

def create (delay limit : Nat) : Backoff := ⟨delay, limit, 0, none⟩

def remaining (b : Backoff) : Nat :=
  b.limit - b.given

def poll (b : Backoff) (now : Nat) : Poll × Backoff :=
  if b.limit ≤ b.given then (.finished, b)
  else
    let readyAt := b.readyAt?.getD (now + b.delay)
    if readyAt ≤ now then (.delay b.delay, { b with given := b.given + 1, readyAt? := none })
    else (.pending readyAt, { b with readyAt? := some readyAt })

/-- Waits for the next delay from `now` on: when the wait ends, and with what. -/
def next (b : Backoff) (now : Nat) : Nat × Poll × Backoff :=
  match b.poll now with
  | (.pending readyAt, b) => (readyAt, b.poll readyAt)
  | (p, b) => (now, p, b)

def waits (b : Backoff) (now : Nat) : Nat → List (Nat × Poll × Backoff)
  | 0 => []
  | count + 1 =>
    let (at_, p, b) := b.next now
    (at_, p, b) :: waits b at_ count

end Backoff

structure RetryPolicy where
  /-- Deliveries of one message, the first one included; none at all counts as one. -/
  attempts : Nat
  backoff : Nat
  deriving DecidableEq, Repr

namespace RetryPolicy

/-- Two deliveries, three seconds apart. -/
def standard : RetryPolicy := ⟨2, 3000⟩

def start (p : RetryPolicy) : Backoff :=
  .create p.backoff (p.attempts - 1)

end RetryPolicy

end SoapRelay
