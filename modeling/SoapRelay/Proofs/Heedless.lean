import SoapRelay.Consumer.Script
import SoapRelay.Exchange
import SoapRelay.Proofs.Platform
import SoapRelay.Proofs.Redelivery

/-!
# Handlers that are heedless

A handler is not told when consumers are to stop, and time goes on only while it waits. So the attempts at a message
are the same with and without a time at which consumers are told, up to what is known of that at their end. The
handlers of both sides are such handlers, and those that play a script.
-/

namespace SoapRelay

variable {σ κ : Type}

/-- A handler that leaves the time alone, and to which it makes no difference whether consumers are to stop. -/
structure Handler.Heedless (h : Handler σ κ) : Prop where
  start_now : ∀ s message, (h.start s message).1.now = s.now
  finish_now : ∀ s work, (h.finish s work).1.now = s.now
  start : ∀ s message stopping, h.start (s.withStopping stopping) message =
    ((h.start s message).1.withStopping stopping, (h.start s message).2)
  finish : ∀ s work stopping, h.finish (s.withStopping stopping) work =
    ((h.finish s work).1.withStopping stopping, (h.finish s work).2)

theorem Handler.Heedless.punctual {h : Handler σ κ} (heedless : h.Heedless) : h.Punctual := by
  refine ⟨heedless.start_now, ?_, heedless.finish_now, ?_⟩
  · intro s message
    exact congrArg (·.1.stopping) (heedless.start s message s.stopping)
  · intro s work
    exact congrArg (·.1.stopping) (heedless.finish s work s.stopping)

def Outcome.isRetryable : Outcome → Bool
  | .retryable _ => true
  | _ => false

namespace Handler

variable {h : Handler σ κ} {stopAt? : Option Nat} {message : String} {x : Scene σ} {stopping : Bool}

/-- The attempts at a message that is handled again and again, each one a delay after the one before it. -/
def attempts (h : Handler σ κ) (delay : Nat) (message : String) (s : Scene σ) : Nat → Attempt σ
  | 0 => h.attempt none s message
  | i + 1 => h.attempt none ((attempts h delay message s i).left.later delay) message

theorem attempts_succ (h : Handler σ κ) (delay : Nat) (message : String) (s : Scene σ) (i : Nat) :
    h.attempts delay message s (i + 1) = h.attempts delay message ((h.attempt none s message).left.later delay) i := by
  induction i with
  | zero => rfl
  | succ i ih =>
    rw [attempts, ih]
    rfl

/-- Being told to stop is seen when an attempt is over, and makes no other difference to it. -/
theorem Heedless.attempt_told (heedless : h.Heedless) (running : x.stopping = false)
    (timely : (x.withStopping stopping).Timely stopAt?) (message : String) :
    (h.attempt stopAt? (x.withStopping stopping) message).outcome = (h.attempt none x message).outcome ∧
      (h.attempt stopAt? (x.withStopping stopping) message).left =
        (h.attempt none x message).left.withStopping
          ((x.withStopping stopping).told stopAt? (h.attempt none x message).left.now) := by
  have now := heedless.start_now x message
  have calm := (heedless.punctual.start_stopping x message).trans running
  unfold attempt
  rw [heedless.start]
  cases started : h.start x message with
  | mk s p =>
    rw [started] at now calm
    cases p with
    | done o =>
      refine ⟨rfl, ?_⟩
      dsimp only
      rw [now]
      exact congrArg s.withStopping timely.symm
    | waiting work until_ =>
      have told : ∀ time, (s.withStopping stopping).told stopAt? time = (x.withStopping stopping).told stopAt? time :=
        fun time => rfl
      have waited : (s.withStopping stopping).atTime stopAt? until_ =
          (s.atTime none until_).withStopping ((x.withStopping stopping).told stopAt? until_) := by
        rw [Scene.atTime_eq, Scene.atTime_eq, told]
        rfl
      have same : (x.withStopping stopping).told stopAt? until_ =
          (x.withStopping stopping).told stopAt? (max s.now until_) := by
        rcases Nat.le_total s.now until_ with later | earlier
        · rw [Nat.max_eq_right later]
        · have before : until_ ≤ (x.withStopping stopping).now := Nat.le_trans earlier (Nat.le_of_eq now)
          rw [Nat.max_eq_left earlier, timely.told_early before, now]
          exact timely.symm
      have now : (h.finish (s.atTime none until_) work).1.now = max s.now until_ := heedless.finish_now _ work
      refine ⟨?_, ?_⟩
      · show (h.finish ((s.withStopping stopping).atTime stopAt? until_) work).2 = _
        rw [waited, heedless.finish]
      · show (h.finish ((s.withStopping stopping).atTime stopAt? until_) work).1 =
          (h.finish (s.atTime none until_) work).1.withStopping
            ((x.withStopping stopping).told stopAt? (h.finish (s.atTime none until_) work).1.now)
        rw [waited, heedless.finish, now, same]

theorem Heedless.attempt_running (heedless : h.Heedless) (running : x.stopping = false) (message : String) :
    (h.attempt none x message).left.stopping = false := by
  have timely : (x.withStopping false).Timely none := rfl
  have same : x = x.withStopping false := by rw [← running]; rfl
  have left := (heedless.attempt_told running timely message).2
  rw [← same] at left
  rw [left]
  exact (Bool.or_false _).trans running

theorem Heedless.attempts_running (heedless : h.Heedless) {delay : Nat} (running : x.stopping = false)
    (message : String) (i : Nat) : (h.attempts delay message x i).left.stopping = false := by
  induction i with
  | zero => exact heedless.attempt_running running message
  | succ i ih => exact heedless.attempt_running (x := (h.attempts delay message x i).left.later delay) ih message

theorem attempts_message (h : Handler σ κ) (delay : Nat) (message : String) (s : Scene σ) (i : Nat) :
    (h.attempts delay message s i).message = message := by
  cases i with
  | zero => exact h.attempt_message none s message
  | succ i => exact h.attempt_message none _ message

theorem Heedless.attempt_now (heedless : h.Heedless) (s : Scene σ) (message : String) :
    s.now ≤ (h.attempt none s message).left.now := by
  have started := heedless.start_now s message
  unfold attempt
  cases begun : h.start s message with
  | mk s' p =>
    rw [begun] at started
    cases p with
    | done o => exact Nat.le_of_eq started.symm
    | waiting work until_ =>
      have finished := heedless.finish_now (s'.atTime none until_) work
      calc s.now = s'.now := started.symm
        _ ≤ (s'.atTime none until_).now := Nat.le_max_left _ _
        _ = (h.finish (s'.atTime none until_) work).1.now := finished.symm

theorem Heedless.attempts_now (heedless : h.Heedless) (delay : Nat) (message : String) (s : Scene σ) (i : Nat) :
    s.now ≤ (h.attempts delay message s i).left.now := by
  induction i with
  | zero => exact heedless.attempt_now s message
  | succ i ih =>
    calc s.now ≤ (h.attempts delay message s i).left.now := ih
      _ ≤ ((h.attempts delay message s i).left.later delay).now := Nat.le_add_right _ _
      _ ≤ (h.attempts delay message s (i + 1)).left.now := heedless.attempt_now _ message

theorem Heedless.attempts_calm (heedless : h.Heedless) (delay : Nat) (running : x.stopping = false) (message : String)
    (i : Nat) : (h.attempts delay message x i).left.withStopping false = (h.attempts delay message x i).left := by
  rw [← heedless.attempts_running running message i]
  rfl

end Handler

/-! ### The handlers of both sides, and of a script -/

theorem Handler.discard_heedless : (Handler.discard σ κ).Heedless :=
  ⟨fun _ _ => rfl, fun _ _ => rfl, fun _ _ _ => rfl, fun _ _ _ => rfl⟩

theorem Script.handler_heedless : Script.handler.Heedless := by
  refine ⟨?_, fun _ _ => rfl, ?_, fun _ _ _ => rfl⟩
  · intro s text
    show (Script.start s text).1.now = s.now
    unfold Script.start
    dsimp only
    split
    · rfl
    · rfl
  · intro s text stopping
    show Script.start (s.withStopping stopping) text =
      ((Script.start s text).1.withStopping stopping, (Script.start s text).2)
    unfold Script.start
    dsimp only [Script.record, Scene.withEnv, Scene.withStopping]
    split
    · rfl
    · rfl

theorem Replies.handler_heedless (signer : Signer) : (Replies.handler signer).Heedless := by
  refine ⟨?_, fun _ _ => rfl, ?_, fun _ _ _ => rfl⟩
  · intro s message
    show (Replies.handle signer s message).1.now = s.now
    unfold Replies.handle
    split
    · rfl
    · split
      · rfl
      · rfl
  · intro s message stopping
    have same : Replies.handle signer (s.withStopping stopping) message =
        ((Replies.handle signer s message).1.withStopping stopping, (Replies.handle signer s message).2) := by
      unfold Replies.handle
      split
      · rfl
      · split
        · rfl
        · rfl
    exact congrArg (fun r => (r.1, Progress.done r.2)) same

namespace Platform

variable (p : Platform)

theorem finish_now (s : Scene Traffic) (w : CallWork) : (p.finish s w).1.now = s.now := by
  have concludes := finish_concludes p s w
  generalize p.finish s w = result at concludes ⊢
  cases concludes with
  | replied => rfl
  | unheard => rfl
  | failed => rfl

theorem finish_withStopping (s : Scene Traffic) (w : CallWork) (stopping : Bool) :
    p.finish (s.withStopping stopping) w = ((p.finish s w).1.withStopping stopping, (p.finish s w).2) := by
  unfold finish answer
  cases w.result with
  | error e => rfl
  | ok response =>
    dsimp only
    cases p.signer.sign? (⟨w.id, response, ""⟩ : Reply) with
    | none => rfl
    | some reply =>
      dsimp only [Scene.withEnv, Scene.withStopping]
      cases s.bus.publish? p.repliesTopic reply.encode with
      | none => rfl
      | some bus => rfl

theorem start_screened {s : Scene Traffic} {message : String} {request : Request} {context : Tls.Context}
    (screened : p.screen message = .ok (request, context)) :
    p.start s message =
      if (p.transport s.env.calls (p.callFor s.now request context)).after = 0 then
        ((p.finish (p.invoked s request context) (p.workFor s request context)).1,
          .done (p.finish (p.invoked s request context) (p.workFor s request context)).2)
      else (p.invoked s request context, .waiting (p.workFor s request context)
        (s.now + (p.transport s.env.calls (p.callFor s.now request context)).after)) := by
  unfold start
  rw [screened]
  rfl

theorem start_unscreened {s : Scene Traffic} {message : String} {e : ProcessError} (refused : p.screen message = .error e) :
    p.start s message = (s, .done e.outcome) := by
  unfold start
  rw [refused]

theorem handler_heedless : p.handler.Heedless := by
  refine ⟨?_, finish_now p, ?_, finish_withStopping p⟩
  · intro s message
    show (p.start s message).1.now = s.now
    cases screened : p.screen message with
    | error e => rw [start_unscreened p screened]
    | ok found =>
      rw [start_screened p screened]
      split
      · exact finish_now p _ _
      · rfl
  · intro s message stopping
    show p.start (s.withStopping stopping) message =
      ((p.start s message).1.withStopping stopping, (p.start s message).2)
    cases screened : p.screen message with
    | error e => rw [start_unscreened p screened, start_unscreened p screened]
    | ok found =>
      have finished := finish_withStopping p (p.invoked s found.1 found.2) (p.workFor s found.1 found.2) stopping
      rw [start_screened p screened, start_screened p screened]
      by_cases at_once : (p.transport s.env.calls (p.callFor s.now found.1 found.2)).after = 0
      · rw [if_pos at_once]
        exact (if_pos at_once).trans (congrArg (fun r => (r.1, Progress.done r.2)) finished)
      · rw [if_neg at_once]
        exact if_neg at_once

end Platform

theorem Role.handler_heedless (client : Client) (platform : Platform) (role : Role) :
    (role.handler client platform).Heedless := by
  cases role with
  | deadLetters => exact Handler.discard_heedless
  | requests => exact platform.handler_heedless
  | replies => exact Replies.handler_heedless client.signer

end SoapRelay
