import SoapRelay.Consumer.Handler
import SoapRelay.Retry.Backoff

/-!
# The delivery of one message

A message is handled, and handled again after a delay as long as it fails for now and the policy
allows another attempt. Otherwise it is passed on to the dead-letter topic as it is. A message that
waits for another attempt, or would, is abandoned when consumers are to stop.
-/

namespace SoapRelay

structure Consumer where
  topic : String
  /-- Appended to the topic to name its dead-letter topic. -/
  suffix : String
  concurrency : Nat
  policy : RetryPolicy
  deriving DecidableEq, Repr

namespace Consumer

def deadLetterTopic (c : Consumer) : String :=
  c.topic ++ c.suffix

/-- Messages that may be handled at the same time. -/
def limit (c : Consumer) : Nat :=
  max 1 c.concurrency

def standardConcurrency : Nat := 4

def standardSuffix : String := ".DLT"

end Consumer

structure ConsumerStats where
  processed : Nat
  retried : Nat
  deadLettered : Nat
  /-- Messages that the dead-letter topic did not take. -/
  deadLetterFailed : Nat
  deriving DecidableEq, Repr

namespace ConsumerStats

def zero : ConsumerStats := ⟨0, 0, 0, 0⟩

def add (a b : ConsumerStats) : ConsumerStats :=
  ⟨a.processed + b.processed, a.retried + b.retried, a.deadLettered + b.deadLettered,
    a.deadLetterFailed + b.deadLetterFailed⟩

end ConsumerStats

inductive Disposition where
  | processed
  | deadLettered
  | deadLetterFailed
  | abandoned
  deriving DecidableEq, Repr

/-- Where a delivery stands between two moments of activity. -/
inductive Stage (κ : Type) where
  | fresh
  | handling (work : κ) (until_ : Nat)
  | backingOff (until_ : Nat)
  deriving DecidableEq

structure Delivery (κ : Type) where
  message : String
  backoff : Backoff
  stage : Stage κ
  deriving DecidableEq

/-- What a moment of activity makes of a delivery. -/
inductive Turn (κ : Type) where
  | going (d : Delivery κ)
  | ended (how : Disposition)

namespace Delivery

variable {σ κ : Type}

def fresh (c : Consumer) (message : String) : Delivery κ :=
  ⟨message, c.policy.start, .fresh⟩

def wakeAt? (d : Delivery κ) : Option Nat :=
  match d.stage with
  | .fresh => none
  | .handling _ u => some u
  | .backingOff u => some u

def canGo (d : Delivery κ) (now : Nat) (stopping : Bool) : Bool :=
  match d.stage with
  | .fresh => true
  | .handling _ u => u ≤ now
  | .backingOff u => stopping || u ≤ now

def deadLetter (c : Consumer) (s : Scene σ) (n : ConsumerStats) (message : String) :
    Scene σ × ConsumerStats × Turn κ :=
  match s.bus.publish? c.deadLetterTopic message with
  | some bus => (s.withBus bus, { n with deadLettered := n.deadLettered + 1 }, .ended .deadLettered)
  | none => (s, { n with deadLetterFailed := n.deadLetterFailed + 1 }, .ended .deadLetterFailed)

theorem remaining_of_poll {b b' : Backoff} {now delay : Nat}
    (h : b.poll now = (.delay delay, b')) : b'.remaining < b.remaining := by
  unfold Backoff.poll at h
  split at h
  · simp at h
  · dsimp only at h
    split at h
    · simp only [Prod.mk.injEq] at h
      simp only [← h.2, Backoff.remaining]
      omega
    · simp at h

mutual

/-- Goes on from what the handler came to. -/
def settle (h : Handler σ κ) (c : Consumer) (s : Scene σ) (n : ConsumerStats) (d : Delivery κ)
    (p : Progress κ) : Scene σ × ConsumerStats × Turn κ :=
  match p with
  | .waiting work u => (s, n, .going { d with stage := .handling work u })
  | .done .processed => (s, { n with processed := n.processed + 1 }, .ended .processed)
  | .done (.fatal _) => deadLetter c s n d.message
  | .done (.retryable _) => retry h c s n d
termination_by (d.backoff.remaining, 1)

/-- Goes on after a failure that may pass: waits, handles the message again, or gives it up. -/
def retry (h : Handler σ κ) (c : Consumer) (s : Scene σ) (n : ConsumerStats) (d : Delivery κ) :
    Scene σ × ConsumerStats × Turn κ :=
  if s.stopping then (s, n, .ended .abandoned)
  else
    match _h : d.backoff.poll s.now with
    | (.finished, _) => deadLetter c s n d.message
    | (.pending u, b) => (s, n, .going { d with backoff := b, stage := .backingOff u })
    | (.delay _, b) =>
      let (s, p) := h.start s d.message
      settle h c s { n with retried := n.retried + 1 } { d with backoff := b } p
termination_by (d.backoff.remaining, 0)
decreasing_by
  apply Prod.Lex.left
  exact remaining_of_poll _h

end

/-- A moment of activity. -/
def go (h : Handler σ κ) (c : Consumer) (s : Scene σ) (n : ConsumerStats) (d : Delivery κ) :
    Scene σ × ConsumerStats × Turn κ :=
  match d.stage with
  | .fresh =>
    let (s, p) := h.start s d.message
    settle h c s n d p
  | .handling work _ =>
    let (s, o) := h.finish s work
    settle h c s n d (.done o)
  | .backingOff _ => retry h c s n d

end Delivery

end SoapRelay
