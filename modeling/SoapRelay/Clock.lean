/-!
# Time that jumps

Something that happens by itself happens at a wake time. Time stands still while anything can run
and then goes on to the next wake time, so nothing is late. Times are milliseconds from a start.
-/

namespace SoapRelay.Clock

/-- Goes from one wake time to the next, up to a limit, and lets each one happen. -/
def pass {σ : Type} (nextWake : σ → Option Nat) (wake : Nat → σ → σ) (limit now : Nat) (s : σ) : σ :=
  match nextWake s with
  | none => s
  | some t => if now < t ∧ t ≤ limit then pass nextWake wake limit t (wake t s) else s
termination_by limit - now

/-- Goes from one wake time to the next until something holds; `steps` bounds the wake times. The
time that was reached comes with the result. -/
def runUntil {σ : Type} (holds : σ → Bool) (nextWake : σ → Option Nat) (wake : Nat → σ → σ) :
    (steps : Nat) → (now : Nat) → σ → Nat × σ
  | 0, now, s => (now, s)
  | steps + 1, now, s =>
    if holds s then (now, s)
    else
      match nextWake s with
      | none => (now, s)
      | some t => runUntil holds nextWake wake steps (max now t) (wake (max now t) s)

def earliest (times : List Nat) : Option Nat :=
  times.foldl (fun best t => some (match best with | some b => min b t | none => t)) none

/-- The last instant that can be told. Seconds are counted in 63 bits, and at the start one has passed already. -/
def latest : Nat := 0x7ffffffffffffffe * 1000 + 999

/-- The instant some time from now, if it can be told. -/
def after? (now wait : Nat) : Option Nat :=
  if now + wait ≤ latest then some (now + wait) else none

end SoapRelay.Clock
