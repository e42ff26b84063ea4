import SoapRelay.Proofs.Attempts

/-!
# A delivery as a loop

A delivery goes from moment to moment, and each moment may hold several attempts. Seen from outside it is a loop:
the message is handled, and handled again after the delay as long as it fails for now, an attempt is left and
consumers are not to stop. The main statement is that `Consumer.process` is this loop.
-/

namespace SoapRelay

variable {σ κ : Type}

namespace Scene

variable {s : Scene σ} {stopAt? : Option Nat} {time until_ : Nat}

def withStopping (s : Scene σ) (stopping : Bool) : Scene σ := { s with stopping }

def later (s : Scene σ) (time : Nat) : Scene σ := { s with now := s.now + time }

/-- Whether consumers have been told to stop by some time. -/
def told (s : Scene σ) (stopAt? : Option Nat) (time : Nat) : Bool :=
  s.stopping || stopAt?.any (decide <| · ≤ time)

theorem atTime_eq (s : Scene σ) (stopAt? : Option Nat) (time : Nat) :
    s.atTime stopAt? time = { s with now := max s.now time, stopping := s.told stopAt? time } := by
  unfold atTime told
  cases stopAt? with
  | none => rfl
  | some t => rfl

theorem told_of_stopping (stopping : s.stopping = true) : s.told stopAt? time = true := by
  rw [told, stopping, Bool.true_or]

theorem told_running (running : s.stopping = false) :
    s.told stopAt? time = true ↔ ∃ t, stopAt? = some t ∧ t ≤ time := by
  simp [told, running, Option.any_eq_true]

theorem told_mono (told : s.told stopAt? time = true) (le : time ≤ until_) : s.told stopAt? until_ = true := by
  cases running : s.stopping with
  | true => exact told_of_stopping running
  | false =>
    obtain ⟨t, stops, before⟩ := (told_running running).mp told
    exact (told_running running).mpr ⟨t, stops, Nat.le_trans before le⟩

theorem told_atTime (le : time ≤ until_) : (s.atTime stopAt? time).told stopAt? until_ = s.told stopAt? until_ := by
  rw [atTime_eq]
  cases already : s.told stopAt? time with
  | true => rw [told_mono already le, told_of_stopping rfl]
  | false =>
    have running : s.stopping = false := (Bool.or_eq_false_iff.mp already).1
    simp only [told, running]

/-- Whether consumers are to stop agrees with the time. -/
def Timely (s : Scene σ) (stopAt? : Option Nat) : Prop :=
  s.told stopAt? s.now = s.stopping

theorem Timely.told_early (timely : s.Timely stopAt?) (le : time ≤ s.now) : s.told stopAt? time = s.stopping := by
  cases running : s.stopping with
  | true => exact told_of_stopping running
  | false =>
    have not_yet : s.told stopAt? s.now = false := timely.trans running
    rw [Bool.eq_false_iff]
    intro told
    rw [told_mono told le] at not_yet
    cases not_yet

theorem Timely.atTime (timely : s.Timely stopAt?) (time : Nat) : (s.atTime stopAt? time).Timely stopAt? := by
  have now : (s.atTime stopAt? time).now = max s.now time := rfl
  unfold Timely
  rw [told_atTime (now ▸ Nat.le_max_right _ _), now, atTime_eq]
  rcases Nat.le_total s.now time with later | earlier
  · rw [Nat.max_eq_right later]
  · rw [Nat.max_eq_left earlier]
    exact timely.trans (timely.told_early earlier).symm

theorem timely_atTime_now (s : Scene σ) (stopAt? : Option Nat) : (s.atTime stopAt? s.now).Timely stopAt? := by
  have now : (s.atTime stopAt? s.now).now = s.now := Nat.max_self _
  unfold Timely
  rw [now, told_atTime (Nat.le_refl _), atTime_eq]

/-- The scene when a wait is over, or when consumers are told to stop before that. -/
def waited (s : Scene σ) (stopAt? : Option Nat) (time : Nat) : Scene σ :=
  s.atTime stopAt? (stopAt?.elim (s.now + time) (min (s.now + time)))

theorem told_waited (running : s.stopping = false) :
    (s.waited stopAt? time).stopping = s.told stopAt? (s.now + time) := by
  rw [waited, atTime_eq]
  unfold told
  cases stopAt? with
  | none => rfl
  | some t =>
    simp only [running, Bool.false_or, Option.any_some, Option.elim_some]
    exact decide_eq_decide.mpr (by omega)

theorem waited_eq_later (running : s.stopping = false)
    (still : s.told stopAt? (s.now + time) = false) : s.waited stopAt? time = s.later time := by
  have stopping := (told_waited running).trans still
  have now : (s.waited stopAt? time).now = s.now + time := by
    cases stopAt? with
    | none => exact Nat.max_eq_right (Nat.le_add_right _ _)
    | some t =>
      have after : s.now + time < t := by
        simpa [told, running] using still
      show max s.now (min (s.now + time) t) = _
      omega
  have rest : s.waited stopAt? time = { s with now := (s.waited stopAt? time).now, stopping := (s.waited stopAt? time).stopping } := rfl
  rw [rest, now, stopping, ← running]
  rfl

theorem waited_eq_cut (running : s.stopping = false) (timely : s.told stopAt? s.now = false)
    (told : s.told stopAt? (s.now + time) = true) :
    ∃ until_, s.told stopAt? until_ = true ∧ s.now ≤ until_ ∧ until_ ≤ s.now + time ∧
      s.waited stopAt? time = { s with now := until_, stopping := true } := by
  obtain ⟨t, stops, within⟩ := (told_running running).mp told
  subst stops
  have later : s.now < t := by simpa [Scene.told, running] using timely
  have now : (s.waited (some t) time).now = t := by
    show max s.now (min (s.now + time) t) = t
    omega
  refine ⟨t, (told_running running).mpr ⟨t, rfl, Nat.le_refl t⟩, Nat.le_of_lt later, within, ?_⟩
  calc s.waited (some t) time
      = { s with now := (s.waited (some t) time).now, stopping := (s.waited (some t) time).stopping } := rfl
    _ = { s with now := t, stopping := true } := by rw [now, told_waited running, told]

end Scene

/-! ### One attempt -/

/-- A handler that does nothing about the time. -/
structure Handler.Punctual (h : Handler σ κ) : Prop where
  start_now : ∀ s message, (h.start s message).1.now = s.now
  start_stopping : ∀ s message, (h.start s message).1.stopping = s.stopping
  finish_now : ∀ s work, (h.finish s work).1.now = s.now
  finish_stopping : ∀ s work, (h.finish s work).1.stopping = s.stopping

/-- A message that was handled once, with the scene before and after. -/
structure Attempt (σ : Type) where
  message : String
  begun : Scene σ
  left : Scene σ
  outcome : Outcome

/-- Handles a message once, from beginning to end. -/
def Handler.attempt (h : Handler σ κ) (stopAt? : Option Nat) (s : Scene σ) (message : String) : Attempt σ :=
  match h.start s message with
  | (s', .done o) => ⟨message, s, s', o⟩
  | (s', .waiting work until_) =>
    let (s'', o) := h.finish (s'.atTime stopAt? until_) work
    ⟨message, s, s'', o⟩

theorem Handler.attempt_message (h : Handler σ κ) (stopAt? : Option Nat) (s : Scene σ) (message : String) :
    (h.attempt stopAt? s message).message = message := by
  unfold Handler.attempt
  split
  · rfl
  · rfl

theorem Handler.attempt_begun (h : Handler σ κ) (stopAt? : Option Nat) (s : Scene σ) (message : String) :
    (h.attempt stopAt? s message).begun = s := by
  unfold Handler.attempt
  split
  · rfl
  · rfl

theorem Handler.Punctual.timely_attempt {h : Handler σ κ} {s : Scene σ} {stopAt? : Option Nat} (punctual : h.Punctual)
    (timely : s.Timely stopAt?) (message : String) :
    (h.attempt stopAt? s message).left.Timely stopAt? := by
  have kept : ∀ {a b : Scene σ}, b.now = a.now → b.stopping = a.stopping → a.Timely stopAt? → b.Timely stopAt? := by
    intro a b now stopping timely
    unfold Scene.Timely Scene.told at timely ⊢
    rw [now, stopping]
    exact timely
  have started := kept (punctual.start_now s message) (punctual.start_stopping s message) timely
  unfold Handler.attempt
  cases begun : h.start s message with
  | mk s' p =>
    rw [begun] at started
    cases p with
    | done o => exact started
    | waiting work until_ =>
      exact kept (punctual.finish_now _ work) (punctual.finish_stopping _ work) (started.atTime until_)

namespace Delivery

variable {h : Handler σ κ} {c : Consumer} {stopAt? : Option Nat} {message : String} {s : Scene σ}
  {n : ConsumerStats} {d : Delivery κ}

def passOn (c : Consumer) (s : Scene σ) (n : ConsumerStats) (message : String) :
    Scene σ × ConsumerStats × Disposition :=
  match s.bus.publish? c.deadLetterTopic message with
  | some bus => (s.withBus bus, n.count .deadLettered, .deadLettered)
  | none => (s, n.count .deadLetterFailed, .deadLetterFailed)

/-- What follows an attempt, where `again` is what would become of the message after it failed for now. -/
def conclude (c : Consumer) (a : Attempt σ) (n : ConsumerStats) (again : Scene σ × ConsumerStats × Disposition) :
    Scene σ × ConsumerStats × Disposition :=
  match a.outcome with
  | .processed => (a.left, n.count .processed, .processed)
  | .fatal _ => passOn c a.left n a.message
  | .retryable _ => if a.left.stopping then (a.left, n, .abandoned) else again

/-- Handles a message until it is done with, with so many attempts left after the next one. -/
def deliver (h : Handler σ κ) (c : Consumer) (stopAt? : Option Nat) (message : String) :
    (more : Nat) → Scene σ → ConsumerStats → Scene σ × ConsumerStats × Disposition
  | 0, s, n =>
    let a := h.attempt stopAt? s message
    conclude c a n (passOn c a.left n message)
  | more + 1, s, n =>
    let a := h.attempt stopAt? s message
    let s := a.left.waited stopAt? c.policy.backoff
    conclude c a n (if s.stopping then (s, n, .abandoned) else deliver h c stopAt? message more s (n.retry 1))

/-! ### From moments to the loop -/

/-- It does not matter how many moments a delivery is given, if they are enough. -/
theorem runFor_enough {some_ more : Nat} (due : Due s d) (enough : d.measure ≤ some_) (too : d.measure ≤ more) :
    runFor h c stopAt? some_ s n d = runFor h c stopAt? more s n d := by
  induction some_ generalizing s n d more with
  | zero => exact absurd enough (by unfold measure; split <;> omega)
  | succ some_ ih =>
    cases more with
    | zero => exact absurd too (by unfold measure; split <;> omega)
    | succ more =>
      have shorter := go_shorter (h := h) (c := c) (n := n) due
      unfold runFor
      cases went : go h c s n d with
      | mk s' rest =>
        obtain ⟨n', turn⟩ := rest
        rw [went] at shorter
        cases turn with
        | ended how => rfl
        | going d' =>
          have less := shorter.measure d' rfl
          exact ih (due_nextMoment shorter rfl) (by omega) (by omega)

def rest (h : Handler σ κ) (c : Consumer) (stopAt? : Option Nat) (s : Scene σ) (n : ConsumerStats) (d : Delivery κ) :
    Scene σ × ConsumerStats × Disposition :=
  runFor h c stopAt? d.measure s n d

/-- What becomes in the end of a delivery that has come to a turn. -/
def carry (h : Handler σ κ) (c : Consumer) (stopAt? : Option Nat) :
    Scene σ × ConsumerStats × Turn κ → Scene σ × ConsumerStats × Disposition
  | (s, n, .ended how) => (s, n, how)
  | (s, n, .going d) => rest h c stopAt? (s.atTime stopAt? (d.nextMoment stopAt? s)) n d

theorem rest_eq (due : Due s d) : rest h c stopAt? s n d = carry h c stopAt? (go h c s n d) := by
  have shorter := go_shorter (h := h) (c := c) (n := n) due
  have some_ : ∃ k, d.measure = k + 1 := Nat.exists_eq_add_one.mpr (by unfold measure; split <;> omega)
  obtain ⟨k, size⟩ := some_
  unfold rest
  rw [size]
  unfold runFor
  cases went : go h c s n d with
  | mk s' rest =>
    obtain ⟨n', turn⟩ := rest
    rw [went] at shorter
    cases turn with
    | ended how => rfl
    | going d' =>
      have less := shorter.measure d' rfl
      exact runFor_enough (due_nextMoment shorter rfl) (by omega) (Nat.le_refl _)

theorem carry_deadLetter (message : String) :
    carry h c stopAt? (deadLetter c s n message) = passOn c s n message := by
  unfold deadLetter passOn
  cases s.bus.publish? c.deadLetterTopic message with
  | none => rfl
  | some bus => rfl

theorem carry_start (h : Handler σ κ) (c : Consumer) (stopAt? : Option Nat) (s : Scene σ) (n : ConsumerStats)
    (d : Delivery κ) : ∃ d' : Delivery κ, d'.message = d.message ∧ d'.backoff = d.backoff ∧
      carry h c stopAt? (settle h c (h.start s d.message).1 n d (h.start s d.message).2) =
        carry h c stopAt? (settle h c (h.attempt stopAt? s d.message).left n d'
          (.done (h.attempt stopAt? s d.message).outcome)) := by
  unfold Handler.attempt
  cases started : h.start s d.message with
  | mk s' p =>
    cases p with
    | done o => exact ⟨d, rfl, rfl, rfl⟩
    | waiting work until_ =>
      refine ⟨{ d with stage := .handling work until_ }, rfl, rfl, ?_⟩
      have due : Due (s'.atTime stopAt? until_) { d with stage := .handling work until_ } := by
        intro other stage
        cases stage
      have waits : settle h c s' n d (.waiting work until_) =
          (s', n, .going { d with stage := .handling work until_ }) := by
        unfold settle
        rfl
      dsimp only
      rw [waits]
      exact rest_eq due

theorem carry_done (o : Outcome) :
    carry h c stopAt? (settle h c s n d (.done o)) =
      match o with
      | .processed => (s, n.count .processed, .processed)
      | .fatal _ => passOn c s n d.message
      | .retryable _ => carry h c stopAt? (retry h c s n d) := by
  unfold settle
  cases o with
  | processed => rfl
  | fatal reason => exact carry_deadLetter d.message
  | retryable reason => rfl

theorem retry_stopping (stopping : s.stopping = true) : retry h c s n d = (s, n, .ended .abandoned) := by
  unfold retry
  exact if_pos stopping

theorem carry_backingOff {time : Nat} (running : s.stopping = false) (stage : d.stage = .backingOff (s.now + time))
    (ready : d.backoff.readyAt? = some (s.now + time)) :
    carry h c stopAt? (s, n, .going d) = carry h c stopAt? (retry h c (s.waited stopAt? time) n d) := by
  have moment : s.atTime stopAt? (d.nextMoment stopAt? s) = s.waited stopAt? time := by
    unfold nextMoment Scene.waited wakeAt?
    rw [stage]
    cases stopAt? with
    | none => rfl
    | some t => exact congrArg _ (if_neg (Bool.eq_false_iff.mp running))
  have due : Due (s.waited stopAt? time) d := by
    intro until_ backingOff
    obtain rfl := Stage.backingOff.inj (stage.symm.trans backingOff)
    refine ⟨ready, ?_⟩
    cases still : s.told stopAt? (s.now + time) with
    | true => exact Or.inl ((Scene.told_waited running).trans still)
    | false =>
      rw [Scene.waited_eq_later running still]
      exact Or.inr (Nat.le_refl _)
  have goes : go h c (s.waited stopAt? time) n d = retry h c (s.waited stopAt? time) n d := by
    unfold go
    rw [stage]
  show rest h c stopAt? (s.atTime stopAt? (d.nextMoment stopAt? s)) n d = _
  rw [moment, rest_eq due, goes]

/-- After a failure for now, with attempts left: the delay, and another attempt unless consumers are to stop. -/
theorem carry_retry {given more : Nat} (running : s.stopping = false) (timely : s.Timely stopAt?)
    (left : d.backoff = ⟨c.policy.backoff, given + (more + 1), given, none⟩) :
    ∃ d' : Delivery κ, d'.message = d.message ∧ d'.backoff = ⟨c.policy.backoff, given + (more + 1), given + 1, none⟩ ∧
      carry h c stopAt? (retry h c s n d) =
        if (s.waited stopAt? c.policy.backoff).stopping then (s.waited stopAt? c.policy.backoff, n, .abandoned)
        else carry h c stopAt? (settle h c (h.start (s.waited stopAt? c.policy.backoff) d.message).1 (n.retry 1) d'
          (h.start (s.waited stopAt? c.policy.backoff) d.message).2) := by
  have more_left : d.backoff.given < d.backoff.limit := by
    rw [left]
    exact Nat.lt_add_of_pos_right (Nat.succ_pos _)
  have ready : d.backoff.readyAt?.getD (s.now + d.backoff.delay) = s.now + c.policy.backoff := by
    rw [left]
    rfl
  rcases Nat.eq_zero_or_pos c.policy.backoff with none | delay
  · have here : s.waited stopAt? c.policy.backoff = s := by
      rw [none]
      exact Scene.waited_eq_later running (timely.trans running)
    have polled : d.backoff.poll s.now =
        (.delay d.backoff.delay, { d.backoff with given := d.backoff.given + 1, readyAt? := .none }) :=
      Backoff.poll_due more_left (by omega)
    refine ⟨{ d with backoff := ⟨c.policy.backoff, given + (more + 1), given + 1, .none⟩ }, rfl, rfl, ?_⟩
    rw [here, retry_delay running polled, left]
    exact (if_neg (Bool.eq_false_iff.mp running)).symm
  · have early : s.now < d.backoff.readyAt?.getD (s.now + d.backoff.delay) := by omega
    have polled := Backoff.poll_early more_left early
    refine ⟨⟨d.message, ⟨c.policy.backoff, given + (more + 1), given + 1, none⟩, .backingOff (s.now + c.policy.backoff)⟩,
      rfl, rfl, ?_⟩
    rw [retry_pending running polled, ready, carry_backingOff running rfl rfl]
    split
    · rename_i stopping
      rw [retry_stopping stopping]
      rfl
    · rename_i still
      have still := (Bool.not_eq_true _).mp still
      have waited := Scene.waited_eq_later running ((Scene.told_waited running).symm.trans still)
      have due : s.now + c.policy.backoff ≤ (s.waited stopAt? c.policy.backoff).now :=
        Nat.le_of_eq (congrArg Scene.now waited).symm
      have polled := Backoff.poll_due (b := { d.backoff with readyAt? := some (s.now + c.policy.backoff) }) more_left due
      rw [retry_delay still polled, left]
      rfl

theorem carry_attempt (punctual : h.Punctual) {more given : Nat} (same : d.message = message)
    (left : d.backoff = ⟨c.policy.backoff, given + more, given, none⟩) (timely : s.Timely stopAt?) :
    carry h c stopAt? (settle h c (h.start s message).1 n d (h.start s message).2) =
      deliver h c stopAt? message more s n := by
  -- on the attempts that are left after this one
  induction more generalizing s n d given with
  | zero =>
    subst same
    obtain ⟨d', same, backoff, started⟩ := carry_start h c stopAt? s n d
    have exhausted : d'.backoff.limit ≤ d'.backoff.given := by
      rw [backoff, left]
      exact Nat.le_refl _
    rw [started, carry_done, same]
    unfold deliver conclude
    dsimp only
    rw [Handler.attempt_message]
    cases (h.attempt stopAt? s d.message).outcome with
    | processed => rfl
    | fatal reason => rfl
    | retryable reason =>
      dsimp only
      split
      · rename_i stopping
        rw [retry_stopping stopping]
        rfl
      · rename_i running
        have running := (Bool.not_eq_true _).mp running
        rw [retry_finished running (Backoff.poll_finished exhausted), carry_deadLetter, same]
  | succ more ih =>
    subst same
    obtain ⟨d', same, backoff, started⟩ := carry_start h c stopAt? s n d
    have timely := punctual.timely_attempt timely d.message
    rw [started, carry_done, same]
    unfold deliver conclude
    dsimp only
    rw [Handler.attempt_message]
    cases (h.attempt stopAt? s d.message).outcome with
    | processed => rfl
    | fatal reason => rfl
    | retryable reason =>
      dsimp only
      split
      · rename_i stopping
        rw [retry_stopping stopping]
        rfl
      · rename_i running
        have running := (Bool.not_eq_true _).mp running
        obtain ⟨d'', message, backoff, retried⟩ := carry_retry (h := h) (n := n) running timely (backoff.trans left)
        rw [retried, same]
        split
        · rfl
        · exact ih (message.trans same) (backoff.trans (by rw [Nat.add_right_comm, Nat.add_assoc])) (timely.atTime _)

end Delivery

/-- A message that is handled from beginning to end goes through the loop. -/
theorem Consumer.process_eq_deliver {h : Handler σ κ} (punctual : h.Punctual) (c : Consumer) (stopAt? : Option Nat)
    (s : Scene σ) (n : ConsumerStats) (message : String) :
    c.process h stopAt? s n message =
      Delivery.deliver h c stopAt? message (c.policy.attempts - 1) (s.atTime stopAt? s.now) n := by
  have due : Delivery.Due (s.atTime stopAt? s.now) (.fresh c message : Delivery κ) := nofun
  have size : Delivery.moments c = (.fresh c message : Delivery κ).measure := (Delivery.measure_fresh c message).symm
  unfold process
  rw [size]
  refine (Delivery.rest_eq due).trans ?_
  rw [Delivery.go_start rfl]
  have left : (.fresh c message : Delivery κ).backoff = ⟨c.policy.backoff, 0 + (c.policy.attempts - 1), 0, none⟩ := by
    rw [Nat.zero_add]
    rfl
  exact Delivery.carry_attempt punctual rfl left (Scene.timely_atTime_now s stopAt?)

end SoapRelay
