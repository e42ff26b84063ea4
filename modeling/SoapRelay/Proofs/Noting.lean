import SoapRelay.Consumer.Process

/-!
# Handlers that are watched

To say what is done with a message, a handler writes something down beside what it does. A handler that does
the same to the part of a scene that is seen has the same deliveries, as far as they are seen.

To count how often a message is handled, a handler writes down each message that it starts with. What it does
otherwise stays the same: without what was written down, a delivery is the one it would have been.
-/

namespace SoapRelay

variable {σ κ τ : Type}

namespace Scene

def noting (s : Scene σ) (log : List String) : Scene (σ × List String) :=
  ⟨s.now, s.bus, s.stopping, (s.env, log)⟩

def bare (s : Scene (σ × List String)) : Scene σ :=
  ⟨s.now, s.bus, s.stopping, s.env.1⟩

/-- What is seen of a scene if only a part is seen of what is beside the bus. -/
def seen (part : τ → σ) (s : Scene τ) : Scene σ :=
  ⟨s.now, s.bus, s.stopping, part s.env⟩

end Scene

/-- A handler that does to what is seen what another one does. -/
structure Handler.Shows (h' : Handler τ κ) (part : τ → σ) (h : Handler σ κ) : Prop where
  start : ∀ s message, ((h'.start s message).1.seen part, (h'.start s message).2) = h.start (s.seen part) message
  finish : ∀ s work, ((h'.finish s work).1.seen part, (h'.finish s work).2) = h.finish (s.seen part) work

namespace Delivery

variable {h : Handler σ κ} {h' : Handler τ κ} {part : τ → σ} {c : Consumer} {s : Scene τ} {n : ConsumerStats}
  {d : Delivery κ} {α : Type}

def seen (part : τ → σ) (result : Scene τ × α) : Scene σ × α :=
  (result.1.seen part, result.2)

theorem deadLetter_seen (message : String) :
    (seen part (deadLetter c s n message) : Scene σ × ConsumerStats × Turn κ) =
      deadLetter c (s.seen part) n message := by
  unfold deadLetter
  rw [show (s.seen part).bus = s.bus from rfl]
  split
  · rfl
  · rfl

theorem settle_seen (again : ∀ s n, seen part (retry h' c s n d) = retry h c (s.seen part) n d) (p : Progress κ) :
    seen part (settle h' c s n d p) = settle h c (s.seen part) n d p := by
  unfold settle
  cases p with
  | waiting work until_ => rfl
  | done outcome =>
    cases outcome with
    | processed => rfl
    | fatal reason => exact deadLetter_seen d.message
    | retryable reason => exact again s n

section

variable (shows : h'.Shows part h)

include shows

theorem retry_seen : seen part (retry h' c s n d) = retry h c (s.seen part) n d := by
  -- on the attempts that are left: a delay that is over at once uses one up
  induction left : d.backoff.remaining using Nat.strongRecOn generalizing s n d with
  | ind left ih =>
    subst left
    unfold retry
    rw [show (s.seen part).stopping = s.stopping from rfl, show (s.seen part).now = s.now from rfl]
    split
    · rfl
    · split
      · exact deadLetter_seen d.message
      · rfl
      · rename_i delay b polled
        rw [← shows.start]
        exact settle_seen (fun s n => ih _ (remaining_of_poll polled) rfl) _

theorem go_seen : seen part (go h' c s n d) = go h c (s.seen part) n d := by
  unfold go
  split
  · rw [← shows.start]
    exact settle_seen (fun _ _ => retry_seen shows) _
  · rw [← shows.finish]
    exact settle_seen (fun _ _ => retry_seen shows) _
  · exact retry_seen shows

theorem runFor_seen (stopAt? : Option Nat) (moments : Nat) :
    seen part (runFor h' c stopAt? moments s n d) = runFor h c stopAt? moments (s.seen part) n d := by
  induction moments generalizing s n d with
  | zero => rfl
  | succ moments ih =>
    have same : seen part (go h' c s n d) = go h c (s.seen part) n d := go_seen shows
    unfold runFor
    rw [← same]
    cases went : go h' c s n d with
    | mk s' rest =>
      obtain ⟨n', turn⟩ := rest
      cases turn with
      | ended how => rfl
      | going d' => exact ih

/-- Of the delivery of a message the same is seen. -/
theorem process_seen (c : Consumer) (stopAt? : Option Nat) (s : Scene τ) (n : ConsumerStats) (message : String) :
    seen part (c.process h' stopAt? s n message) = c.process h stopAt? (s.seen part) n message :=
  runFor_seen shows stopAt? _

end

end Delivery

/-! ### Messages that are written down -/

def Handler.noting (h : Handler σ κ) : Handler (σ × List String) κ where
  start s message := ((h.start s.bare message).1.noting (s.env.2 ++ [message]), (h.start s.bare message).2)
  finish s work := ((h.finish s.bare work).1.noting s.env.2, (h.finish s.bare work).2)

theorem Handler.start_noting {h : Handler σ κ} {s : Scene (σ × List String)} {s' : Scene σ} {p : Progress κ}
    {message : String} (started : h.start s.bare message = (s', p)) :
    h.noting.start s message = (s'.noting (s.env.2 ++ [message]), p) := by
  unfold Handler.noting
  dsimp only
  rw [started]

theorem Handler.noting_shows (h : Handler σ κ) : h.noting.Shows Prod.fst h :=
  ⟨fun _ _ => rfl, fun _ _ => rfl⟩

def Delivery.bare {α : Type} (result : Scene (σ × List String) × α) : Scene σ × α :=
  (result.1.bare, result.2)

/-- Watching a handler does not change what becomes of a message. -/
theorem Consumer.process_bare (c : Consumer) (h : Handler σ κ) (stopAt? : Option Nat)
    (s : Scene (σ × List String)) (n : ConsumerStats) (message : String) :
    Delivery.bare (c.process h.noting stopAt? s n message) = c.process h stopAt? s.bare n message :=
  Delivery.process_seen h.noting_shows c stopAt? s n message

end SoapRelay
