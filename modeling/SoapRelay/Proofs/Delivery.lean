import SoapRelay.Consumer.Worker

/-!
# What deliveries keep

However often a message is handled before its delivery ends or waits, a property of scenes is kept if
starting to handle that message keeps it, finishing justified work keeps it and so does passing the
message on to the dead-letter topic. A worker only takes messages and goes on with its deliveries, so
what both of these keep is kept until the worker has nothing to do.
-/

namespace SoapRelay.Backoff

variable {b : Backoff} {now : Nat}

theorem poll_finished (none : b.limit ≤ b.given) : b.poll now = (.finished, b) :=
  if_pos none

theorem poll_due (left : b.given < b.limit) (due : b.readyAt?.getD (now + b.delay) ≤ now) :
    b.poll now = (.delay b.delay, { b with given := b.given + 1, readyAt? := none }) := by
  unfold poll
  rw [if_neg (Nat.not_le_of_lt left)]
  exact if_pos due

theorem poll_early (left : b.given < b.limit) (early : now < b.readyAt?.getD (now + b.delay)) :
    b.poll now = (.pending (b.readyAt?.getD (now + b.delay)),
      { b with readyAt? := some (b.readyAt?.getD (now + b.delay)) }) := by
  unfold poll
  rw [if_neg (Nat.not_le_of_lt left)]
  exact if_neg (Nat.not_le_of_lt early)

end SoapRelay.Backoff

namespace SoapRelay.Delivery

variable {σ κ : Type} {h : Handler σ κ} {c : Consumer} {message : String} {holds : Scene σ → Prop}
  {justified : Scene σ → κ → Prop} {s : Scene σ} {n : ConsumerStats} {d : Delivery κ}

/-- What handling a message keeps, and what is known of work that it waits for. -/
structure Keeps (h : Handler σ κ) (c : Consumer) (message : String) (holds : Scene σ → Prop)
    (justified : Scene σ → κ → Prop) : Prop where
  start : ∀ s, holds s → holds (h.start s message).1 ∧
    ∀ work until_, (h.start s message).2 = .waiting work until_ → justified (h.start s message).1 work
  finish : ∀ s work, holds s → justified s work → holds (h.finish s work).1
  deadLetter : ∀ s bus, holds s → s.bus.publish? c.deadLetterTopic message = some bus → holds (s.withBus bus)

/-- The message of a delivery, and what is known of the work that it waits for. -/
structure Stands (message : String) (justified : Scene σ → κ → Prop) (s : Scene σ) (d : Delivery κ) : Prop where
  message : d.message = message
  work : ∀ work until_, d.stage = .handling work until_ → justified s work

structure Kept (message : String) (holds : Scene σ → Prop) (justified : Scene σ → κ → Prop)
    (result : Scene σ × ConsumerStats × Turn κ) : Prop where
  holds : holds result.1
  stands : ∀ d, result.2.2 = .going d → Stands message justified result.1 d

theorem Kept.ended {how : Disposition} (before : holds s) :
    Kept message holds justified (s, n, .ended how) := by
  refine ⟨before, ?_⟩
  intro d going
  cases going

theorem deadLetter_kept (keeps : Keeps h c message holds justified) (before : holds s) :
    Kept message holds justified (deadLetter c s n message) := by
  unfold deadLetter
  split
  · rename_i bus accepted
    exact .ended (keeps.deadLetter s bus before accepted)
  · exact .ended before

/-- Going on from what the handler came to, if handling the message again is no worse. -/
theorem settle_kept (keeps : Keeps h c message holds justified) (same : d.message = message)
    (again : ∀ s n, holds s → Kept message holds justified (retry h c s n d)) {p : Progress κ}
    (before : holds s) (waits : ∀ work until_, p = .waiting work until_ → justified s work) :
    Kept message holds justified (settle h c s n d p) := by
  unfold settle
  cases p with
  | waiting work until_ =>
    refine ⟨before, ?_⟩
    intro d' going
    obtain rfl := Turn.going.inj going
    refine ⟨same, ?_⟩
    intro work' until' stage
    obtain ⟨rfl, rfl⟩ := Stage.handling.inj stage
    exact waits work until_ rfl
  | done outcome =>
    cases outcome with
    | processed => exact .ended before
    | fatal reason =>
      dsimp only
      rw [same]
      exact deadLetter_kept keeps before
    | retryable reason => exact again s n before

theorem retry_kept (keeps : Keeps h c message holds justified) (same : d.message = message) (before : holds s) :
    Kept message holds justified (retry h c s n d) := by
  -- on the attempts that are left: a delay that is over at once uses one up
  induction left : d.backoff.remaining using Nat.strongRecOn generalizing s n d with
  | ind left ih =>
    subst left
    unfold retry
    split
    · exact .ended before
    · split
      · rw [same]
        exact deadLetter_kept keeps before
      · refine ⟨before, ?_⟩
        intro d' going
        obtain rfl := Turn.going.inj going
        refine ⟨same, ?_⟩
        intro work until_ stage
        cases stage
      · rename_i delay b polled
        have fewer := remaining_of_poll polled
        have started := keeps.start s before
        rw [← same] at started
        have next : ({ d with backoff := b } : Delivery κ).message = message := same
        exact settle_kept keeps next (fun s n after => ih _ fewer next after rfl) started.1 started.2

theorem go_kept (keeps : Keeps h c message holds justified) (stands : Stands message justified s d)
    (before : holds s) : Kept message holds justified (go h c s n d) := by
  have again : ∀ s n, holds s → Kept message holds justified (retry h c s n d) :=
    fun s n after => retry_kept keeps stands.message after
  unfold go
  split
  · have started := keeps.start s before
    rw [← stands.message] at started
    exact settle_kept keeps stands.message again started.1 started.2
  · rename_i work until_ stage
    exact settle_kept keeps stands.message again (keeps.finish s work before (stands.work work until_ stage)) nofun
  · exact again s n before

/-- A message that is handled at once is done with. -/
theorem go_start (fresh : d.stage = .fresh) :
    go h c s n d = settle h c (h.start s d.message).1 n d (h.start s d.message).2 := by
  unfold go
  rw [fresh]

theorem go_fresh (fresh : d.stage = .fresh) (done : (h.start s d.message).2 = .done .processed) :
    go h c s n d = ((h.start s d.message).1, { n with processed := n.processed + 1 }, .ended .processed) := by
  rw [go_start fresh, done]
  unfold settle
  rfl

/-! ### What another attempt depends on -/

section Retry

variable {b : Backoff} (running : s.stopping = false)

include running

theorem retry_finished (polled : d.backoff.poll s.now = (.finished, b)) :
    retry h c s n d = deadLetter c s n d.message := by
  unfold retry
  rw [if_neg (by rw [running]; exact Bool.false_ne_true)]
  split
  · rfl
  · rename_i other
    cases polled.symm.trans other
  · rename_i other
    cases polled.symm.trans other

theorem retry_pending {until_ : Nat} (polled : d.backoff.poll s.now = (.pending until_, b)) :
    retry h c s n d = (s, n, .going { d with backoff := b, stage := .backingOff until_ }) := by
  unfold retry
  rw [if_neg (by rw [running]; exact Bool.false_ne_true)]
  split
  · rename_i other
    cases polled.symm.trans other
  · rename_i other
    cases polled.symm.trans other
    rfl
  · rename_i other
    cases polled.symm.trans other

theorem retry_delay {length : Nat} (polled : d.backoff.poll s.now = (.delay length, b)) :
    retry h c s n d = settle h c (h.start s d.message).1 { n with retried := n.retried + 1 }
      { d with backoff := b } (h.start s d.message).2 := by
  unfold retry
  rw [if_neg (by rw [running]; exact Bool.false_ne_true)]
  split
  · rename_i other
    cases polled.symm.trans other
  · rename_i other
    cases polled.symm.trans other
  · rename_i other
    cases polled.symm.trans other
    rfl

end Retry

end SoapRelay.Delivery

namespace SoapRelay.Worker

variable {σ κ : Type} {h : Handler σ κ} {s s' : Scene σ} {w w' : Worker κ} {d : Delivery κ} {k : Nat}

/-- How taking comes out: the worker has another delivery, or no subscription any more. -/
inductive Takes (s : Scene σ) (w : Worker κ) : Scene σ × Worker κ → Prop where
  | message {message : String} {bus : Bus} (subscribed : w.subscribed = true) (running : s.stopping = false)
      (room : w.inFlight.length < w.consumer.limit)
      (received : s.bus.receive? w.consumer.topic = some (message, bus)) :
      Takes s w (s.withBus bus,
        { w with inFlight := w.inFlight ++ [.fresh w.consumer message], taken := w.taken + 1 })
  | nothing (subscribed : w.subscribed = true) (stopping : s.stopping = true) :
      Takes s w (s.withBus (s.bus.unsubscribe w.consumer.topic), { w with subscribed := false })

theorem takes_of_take? {result : Scene σ × Worker κ} (took : w.take? s = some result) : Takes s w result := by
  unfold take? at took
  split at took
  · rename_i able
    obtain ⟨subscribed, room⟩ := Bool.and_eq_true_iff.mp able
    split at took
    · rename_i stopping
      obtain rfl := Option.some.inj took
      exact .nothing subscribed stopping
    · rename_i running
      split at took
      · rename_i message bus received
        obtain rfl := Option.some.inj took
        exact .message subscribed ((Bool.not_eq_true _).mp running) (of_decide_eq_true room) received
      · cases took
  · cases took

/-- Taking a message leaves everything beside the bus alone, and the message is not handled yet. -/
theorem take?_cases (took : w.take? s = some (s', w')) :
    s'.env = s.env ∧ ∀ d ∈ w'.inFlight, d ∈ w.inFlight ∨ d.stage = .fresh := by
  cases takes_of_take? took with
  | message subscribed running room received =>
    refine ⟨rfl, ?_⟩
    intro d member
    rcases List.mem_append.mp member with old | new
    · exact Or.inl old
    · obtain rfl := List.mem_singleton.mp new
      exact Or.inr rfl
  | nothing subscribed stopping => exact ⟨rfl, fun d member => Or.inl member⟩

theorem put_fixed (w : Worker κ) (others : List (Delivery κ)) (stats : ConsumerStats) (turn : Turn κ) :
    (w.put others stats turn).consumer = w.consumer ∧ (w.put others stats turn).subscribed = w.subscribed ∧
      (w.put others stats turn).taken = w.taken := by
  unfold put
  split
  · exact ⟨rfl, rfl, rfl⟩
  · exact ⟨rfl, rfl, rfl⟩
  · exact ⟨rfl, rfl, rfl⟩

theorem mem_put {others : List (Delivery κ)} {stats : ConsumerStats} {turn : Turn κ}
    (member : d ∈ (w.put others stats turn).inFlight) : d ∈ others ∨ turn = .going d := by
  unfold put at member
  split at member
  · rcases List.mem_append.mp member with old | new
    · exact Or.inl old
    · exact Or.inr (List.mem_singleton.mp new ▸ rfl)
  · exact Or.inl member
  · exact Or.inl member

/-- What becomes of a worker when one of its deliveries goes on. -/
theorem goAt?_eq_some {ended : Bool} (went : w.goAt? h s k = some (s', w', ended)) :
    ∃ d, w.inFlight[k]? = some d ∧ s' = (d.go h w.consumer s w.stats).1 ∧
      w' = w.put (w.inFlight.eraseIdx k) (d.go h w.consumer s w.stats).2.1 (d.go h w.consumer s w.stats).2.2 := by
  unfold goAt? at went
  split at went
  · cases went
  · rename_i d found
    obtain ⟨rfl, rest⟩ := Prod.mk.inj (Option.some.inj went)
    obtain ⟨rfl, _⟩ := Prod.mk.inj rest
    exact ⟨d, found, rfl, rfl⟩

/-- A delivery that goes on is one of those in flight, and no other delivery changes. -/
theorem goAt?_cases {ended : Bool} (went : w.goAt? h s k = some (s', w', ended)) :
    ∃ d, w.inFlight[k]? = some d ∧ s' = (d.go h w.consumer s w.stats).1 ∧
      ∀ d' ∈ w'.inFlight, d' ∈ w.inFlight ∨ (d.go h w.consumer s w.stats).2.2 = .going d' := by
  obtain ⟨d, found, same, rfl⟩ := goAt?_eq_some went
  refine ⟨d, found, same, ?_⟩
  intro d' member
  rcases mem_put member with old | going
  · exact Or.inl (List.mem_of_mem_eraseIdx old)
  · exact Or.inr going

theorem goAt?_fresh (found : w.inFlight[k]? = some d) (fresh : d.stage = .fresh)
    (done : (h.start s d.message).2 = .done .processed) :
    w.goAt? h s k = some ((h.start s d.message).1,
      { w with
        inFlight := w.inFlight.eraseIdx k
        stats := { w.stats with processed := w.stats.processed + 1 } }, true) := by
  unfold goAt?
  rw [found]
  dsimp only
  rw [Delivery.go_fresh fresh done]
  rfl

/-! ### Workers that settle -/

variable {P : Scene σ → Worker κ → Prop}

theorem goUntilEnded_keeps (go : ∀ s w k s' w' ended, P s w →
      w.inFlight.findIdx? (·.canGo s.now s.stopping) = some k → w.goAt? h s k = some (s', w', ended) → P s' w')
    (fuel : Nat) (before : P s w) : P (w.goUntilEnded h fuel s).1 (w.goUntilEnded h fuel s).2.1 := by
  induction fuel generalizing s w with
  | zero => exact before
  | succ fuel ih =>
    unfold goUntilEnded goNext?
    cases first : w.inFlight.findIdx? (·.canGo s.now s.stopping) with
    | none => exact before
    | some k =>
      dsimp only
      cases went : w.goAt? h s k with
      | none => exact before
      | some result =>
        obtain ⟨s', w', ended⟩ := result
        have after := go s w k s' w' ended before first went
        cases ended with
        | true => exact after
        | false => exact ih after

/-- What taking a message keeps, and going on with the first delivery that can, is kept until there is nothing
to do. -/
theorem settle_keeps (take : ∀ s w s' w', P s w → w.take? s = some (s', w') → P s' w')
    (go : ∀ s w k s' w' ended, P s w → w.inFlight.findIdx? (·.canGo s.now s.stopping) = some k →
      w.goAt? h s k = some (s', w', ended) → P s' w')
    (fuel : Nat) (before : P s w) : P (w.settle h fuel s).1 (w.settle h fuel s).2 := by
  induction fuel generalizing s w with
  | zero => exact before
  | succ fuel ih =>
    unfold settle
    cases took : w.take? s with
    | none =>
      have after := goUntilEnded_keeps go rounds before
      dsimp only
      split
      · exact ih after
      · exact after
    | some result =>
      obtain ⟨s', w'⟩ := result
      have after := goUntilEnded_keeps go rounds (take s w s' w' before took)
      dsimp only
      split
      · exact ih after
      · exact after

end SoapRelay.Worker
