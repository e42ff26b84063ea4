import SoapRelay.Bus

/-!
# Handling a message

What a consumer needs to know of a handler: it acts on a scene, which is the bus, the time and
whatever else the handler keeps, and it either settles a message at once or has something to wait
for first.
-/

namespace SoapRelay

inductive Outcome where
  | processed
  /-- Handling the same message again may succeed. -/
  | retryable (reason : String)
  /-- The message can never be handled. -/
  | fatal (reason : String)
  deriving DecidableEq, Repr

structure Scene (σ : Type) where
  now : Nat
  bus : Bus
  stopping : Bool
  env : σ

namespace Scene

variable {σ : Type}

def withBus (s : Scene σ) (bus : Bus) : Scene σ := { s with bus }

def withEnv (s : Scene σ) (env : σ) : Scene σ := { s with env }

end Scene

inductive Progress (κ : Type) where
  | done (outcome : Outcome)
  | waiting (work : κ) (until_ : Nat)
  deriving DecidableEq

structure Handler (σ κ : Type) where
  start : Scene σ → String → Scene σ × Progress κ
  /-- Goes on once the wait is over. -/
  finish : Scene σ → κ → Scene σ × Outcome

def Handler.discard (σ κ : Type) : Handler σ κ where
  start s _ := (s, .done .processed)
  finish s _ := (s, .processed)

end SoapRelay
