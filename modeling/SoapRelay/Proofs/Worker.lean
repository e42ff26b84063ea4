import SoapRelay.Exchange
import SoapRelay.Proofs.Bus

/-!
# Workers that have one message

A worker with nothing to do leaves everything as it is. A worker that has a single delivery lets it go
on once and is done until time passes. Two workers that serve each other take turns.
-/

namespace SoapRelay

namespace Worker

variable {σ κ : Type} {h : Handler σ κ} {s s' s'' : Scene σ} {w w' : Worker κ} {d : Delivery κ} {n : ConsumerStats}
  {turn : Turn κ}

/-- There is no message to take, and no delivery can go on. -/
structure Still (s : Scene σ) (w : Worker κ) : Prop where
  untaken : w.take? s = none
  waits : ∀ d ∈ w.inFlight, d.canGo s.now s.stopping = false

theorem take?_nothing (running : s.stopping = false) (none : (s.bus.topic w.consumer.topic).waiting = []) :
    w.take? s = .none := by
  unfold take?
  split
  · rw [if_neg (by rw [running]; exact Bool.false_ne_true), Bus.receive?_nothing none]
  · rfl

variable (κ) in
/-- A worker that has nothing in flight takes what waits first. -/
theorem exists_take? {c : Consumer} {message : String} {rest : List String} (running : s.stopping = false)
    (held : (s.bus.topic c.topic).subscription = .held) (waits : (s.bus.topic c.topic).waiting = message :: rest) :
    ∃ bus, (Worker.create c : Worker κ).take? s =
        some (s.withBus bus, { (Worker.create c : Worker κ) with inFlight := [.fresh c message], taken := 1 }) ∧
      ∀ other, bus.topic other = if other = c.topic then
        { s.bus.topic c.topic with waiting := rest, taken := (s.bus.topic c.topic).taken + 1 } else s.bus.topic other := by
  obtain ⟨bus, received, topics⟩ := Bus.exists_receive? held waits
  have room : 0 < c.limit := Nat.lt_of_lt_of_le Nat.one_pos (Nat.le_max_left _ _)
  refine ⟨bus, ?_, topics⟩
  unfold take? create
  dsimp only
  rw [running, received]
  simp [room]

theorem goUntilEnded_still (waits : ∀ d ∈ w.inFlight, d.canGo s.now s.stopping = false) (fuel : Nat) :
    w.goUntilEnded h fuel s = (s, w, false) := by
  cases fuel with
  | zero => rfl
  | succ fuel =>
    have none : w.inFlight.findIdx? (·.canGo s.now s.stopping) = none := List.findIdx?_eq_none_iff.mpr waits
    unfold goUntilEnded goNext?
    rw [none]

theorem settle_still (still : Still s w) (fuel : Nat) : w.settle h fuel s = (s, w) := by
  cases fuel with
  | zero => rfl
  | succ fuel =>
    unfold settle
    rw [still.untaken]
    dsimp only
    rw [goUntilEnded_still still.waits]
    rfl

theorem goUntilEnded_alone (alone : w.inFlight = [d]) (ready : d.canGo s.now s.stopping = true)
    (went : d.go h w.consumer s w.stats = (s', n, turn))
    (waits : ∀ d ∈ (w.put [] n turn).inFlight, d.canGo s'.now s'.stopping = false) (fuel : Nat) :
    ∃ ended, w.goUntilEnded h (fuel + 1) s = (s', w.put [] n turn, ended) := by
  have first : w.inFlight.findIdx? (·.canGo s.now s.stopping) = some 0 := by
    rw [alone, List.findIdx?_cons, ready]
    rfl
  have gone : ∃ ended, w.goAt? h s 0 = some (s', w.put [] n turn, ended) := by
    unfold goAt?
    rw [alone]
    dsimp only [List.getElem?_cons_zero]
    rw [went]
    exact ⟨_, rfl⟩
  obtain ⟨ended, gone⟩ := gone
  unfold goUntilEnded goNext?
  rw [first]
  dsimp only
  rw [gone]
  cases ended with
  | true => exact ⟨true, rfl⟩
  | false => exact ⟨false, goUntilEnded_still waits fuel⟩

/-- A worker that has one delivery, which it may just have taken, lets it go on. -/
theorem settle_alone (begun : w.take? s = some (s', w') ∨ w.take? s = none ∧ s' = s ∧ w' = w)
    (alone : w'.inFlight = [d]) (ready : d.canGo s'.now s'.stopping = true)
    (went : d.go h w'.consumer s' w'.stats = (s'', n, turn)) (still : Still s'' (w'.put [] n turn)) (fuel : Nat) :
    w.settle h (fuel + 1) s = (s'', w'.put [] n turn) := by
  obtain ⟨ended, gone⟩ := goUntilEnded_alone alone ready went still.waits 99999
  have gone : w'.goUntilEnded h rounds s' = (s'', w'.put [] n turn, ended) := gone
  unfold settle
  rcases begun with took | ⟨untaken, rfl, rfl⟩
  · rw [took]
    dsimp only
    rw [gone]
    exact settle_still still fuel
  · rw [untaken]
    dsimp only
    rw [gone]
    cases ended with
    | true => exact settle_still still fuel
    | false => rfl

end Worker

theorem Station.busy_still {s : Scene Traffic} {t : Station} (still : t.worker.Still s) : t.busy s = false := by
  unfold Station.busy
  rw [still.untaken, List.any_eq_false.mpr]
  · rfl
  · intro d member
    rw [still.waits d member]
    exact Bool.false_ne_true

namespace Exchange

variable {x : Exchange} {a b : Station} {s' : Scene Traffic} {w' : Worker CallWork}

theorem work_still (still : ∀ t ∈ x.stations, t.worker.Still x.scene) (fuel : Nat) : x.work fuel = x := by
  cases fuel with
  | zero => rfl
  | succ fuel =>
    have none : x.stations.findIdx? (·.busy x.scene) = none :=
      List.findIdx?_eq_none_iff.mpr fun t there => Station.busy_still (still t there)
    unfold work workOnce
    rw [none]

theorem work_first (pair : x.stations = [a, b]) (busy : a.busy x.scene = true)
    (settled : a.worker.settle (a.role.handler x.front.client x.platform) Worker.rounds x.scene = (s', w'))
    (fuel : Nat) :
    x.work (fuel + 1) = { x with scene := s', stations := [{ a with worker := w' }, b] }.work fuel := by
  have found : x.stations.findIdx? (·.busy x.scene) = some 0 := by
    rw [pair, List.findIdx?_cons, busy]
    rfl
  rw [work, workOnce, found]
  dsimp only
  rw [pair]
  dsimp only [List.getElem?_cons_zero, List.set_cons_zero]
  rw [settled]

theorem work_second (pair : x.stations = [a, b]) (still : a.worker.Still x.scene) (busy : b.busy x.scene = true)
    (settled : b.worker.settle (b.role.handler x.front.client x.platform) Worker.rounds x.scene = (s', w'))
    (fuel : Nat) :
    x.work (fuel + 1) = { x with scene := s', stations := [a, { b with worker := w' }] }.work fuel := by
  have found : x.stations.findIdx? (·.busy x.scene) = some 1 := by
    rw [pair, List.findIdx?_cons, Station.busy_still still, List.findIdx?_cons, busy]
    rfl
  rw [work, workOnce, found]
  dsimp only
  rw [pair]
  dsimp only [List.getElem?_cons_succ, List.getElem?_cons_zero, List.set_cons_succ, List.set_cons_zero]
  rw [settled]

end Exchange

end SoapRelay
