import SoapRelay.Registry.Hall

/-!
# A clock that is never late

Time passes in a hall only while no caller that waits has anything to find, and not beyond the time of
any of them. A watch is a hall with, at times, a reaper, which sweeps at its own instants; time does not
pass beyond them either. At one instant everybody may act in any order.
-/

namespace SoapRelay

namespace Hall

/-- No caller that waits has anything to find. -/
def Settled (x : Hall) : Prop :=
  ∀ h t limit, x.holds h = some ⟨t, some limit⟩ → (x.registry.await t limit x.now).1 = none

/-- Nobody has to be served before that much time has passed. -/
structure MayPass (x : Hall) (time : Nat) : Prop where
  settled : x.Settled
  within : ∀ h t limit, x.holds h = some ⟨t, some limit⟩ → x.now + time ≤ limit

def Punctual : Hall → List Op → Prop
  | _, [] => True
  | x, op :: ops => (∀ time, op = .pass time → x.MayPass time) ∧ Punctual (x.step op).2 ops

end Hall

structure Watch where
  hall : Hall
  reaper? : Option Reaper

namespace Watch

def start (shards : Nat) (hash : String → UInt64) : Watch := ⟨.start shards hash, none⟩

inductive Act where
  | op (op : Hall.Op)
  /-- A reaper comes, in the place of the one that is there. -/
  | hire (interval : Nat)
  | dismiss
  /-- The reaper has its turn. -/
  | reap
  deriving DecidableEq

def reap (x : Watch) : Watch :=
  let desk := Desk.reap ⟨x.hall.registry, [], [], x.reaper?⟩ x.hall.now
  ⟨x.hall.withRegistry desk.registry, desk.reaper?⟩

def step (x : Watch) : Act → Watch
  | .op op => { x with hall := (x.hall.step op).2 }
  | .hire interval => { x with reaper? := some ⟨interval, x.hall.now⟩ }
  | .dismiss => { x with reaper? := none }
  | .reap => x.reap

def after (x : Watch) (acts : List Act) : Watch :=
  acts.foldl step x

/-- What an act is for the hall, if anything. -/
def op? (x : Watch) : Act → Option Hall.Op
  | .op op => some op
  | .reap => if x.reaper?.any (·.next ≤ x.hall.now) then some .sweep else none
  | .hire _ | .dismiss => none

def ops (x : Watch) : List Act → List Hall.Op
  | [] => []
  | act :: acts => (x.op? act).toList ++ ops (x.step act) acts

/-- Nobody that waits has anything to find, and the reaper nothing to do. -/
structure Settled (x : Watch) : Prop where
  hall : x.hall.Settled
  reaper : ∀ r, x.reaper? = some r → x.hall.now < r.next

structure MayPass (x : Watch) (time : Nat) : Prop where
  settled : x.Settled
  callers : ∀ h t limit, x.hall.holds h = some ⟨t, some limit⟩ → x.hall.now + time ≤ limit
  reaper : ∀ r, x.reaper? = some r → x.hall.now + time ≤ r.next

def Punctual : Watch → List Act → Prop
  | _, [] => True
  | x, act :: acts => (∀ time, act = .op (.pass time) → x.MayPass time) ∧ Punctual (x.step act) acts

end Watch

end SoapRelay
