import SoapRelay.Consumer.Process
import SoapRelay.Proofs.Delivery

/-!
# What the attempts at a message come to

A plan says what holds of the scene before each attempt at a message, while its work is under way, after it
failed for now, and once the message is given up or done with. If the handler keeps to the plan, so does the
delivery, whichever moments it goes on at: within one moment the claim is on the attempts that are left, and
over the whole delivery on the moments that are.
-/

namespace SoapRelay

namespace ConsumerStats

/-- The counters with one more message that ended. -/
def count (n : ConsumerStats) : Disposition → ConsumerStats
  | .processed => { n with processed := n.processed + 1 }
  | .deadLettered => { n with deadLettered := n.deadLettered + 1 }
  | .deadLetterFailed => { n with deadLetterFailed := n.deadLetterFailed + 1 }
  | .abandoned => n

def retry (n : ConsumerStats) (times : Nat) : ConsumerStats :=
  { n with retried := n.retried + times }

theorem retry_retry (n : ConsumerStats) (times more : Nat) : (n.retry times).retry more = n.retry (times + more) := by
  simp only [retry, Nat.add_assoc]

end ConsumerStats

def Turn.tally {κ : Type} (n : ConsumerStats) : Turn κ → ConsumerStats
  | .going _ => n
  | .ended how => n.count how

namespace Backoff

variable {b b' : Backoff} {now until_ length : Nat}

/-- A delay is only handed out while there is one left. -/
structure Gives (b b' : Backoff) : Prop where
  left : b.given < b.limit
  given : b'.given = b.given + 1
  limit : b'.limit = b.limit

theorem exhausted_of_poll (polled : b.poll now = (.finished, b')) : b.limit ≤ b.given := by
  rcases Nat.lt_or_ge b.given b.limit with left | none
  · unfold poll at polled
    rw [if_neg (Nat.not_le_of_lt left)] at polled
    dsimp only at polled
    split at polled
    · cases polled
    · cases polled
  · exact none

theorem pending_of_poll (polled : b.poll now = (.pending until_, b')) :
    now < until_ ∧ until_ = b.readyAt?.getD (now + b.delay) ∧ b' = { b with readyAt? := some until_ } := by
  unfold poll at polled
  split at polled
  · cases polled
  · dsimp only at polled
    split at polled
    · cases polled
    · rename_i early
      cases polled
      exact ⟨Nat.lt_of_not_le early, rfl, rfl⟩

theorem gives_of_poll (polled : b.poll now = (.delay length, b')) : b.Gives b' := by
  unfold poll at polled
  split at polled
  · cases polled
  · rename_i left
    dsimp only at polled
    split at polled
    · cases polled
      exact ⟨Nat.lt_of_not_le left, rfl, rfl⟩
    · cases polled

end Backoff

namespace Delivery

variable {σ κ : Type} {h : Handler σ κ} {c : Consumer} {message : String} {limit : Nat} {s : Scene σ}
  {n : ConsumerStats} {d : Delivery κ} {stopAt? : Option Nat}

/-- What holds of the scene in each state of a delivery. Attempts are numbered from nought. -/
structure Plan (σ κ : Type) where
  ready : Nat → Scene σ → Prop
  working : Nat → Scene σ → κ → Prop
  failed : Nat → Scene σ → Prop
  /-- No attempt follows, and the message is yet to be passed on. -/
  lost : Scene σ → Prop
  ended : Disposition → Scene σ → Prop

namespace Plan

variable {plan : Plan σ κ}

/-- What holds once an attempt has come so far. -/
def After (plan : Plan σ κ) (i : Nat) (s : Scene σ) : Progress κ → Prop
  | .waiting work _ => plan.working i s work
  | .done .processed => plan.ended .processed s
  | .done (.retryable _) => plan.failed i s
  | .done (.fatal _) => plan.lost s

/-- An attempt that does not end as processed is made again, or the message is lost. -/
theorem after_done {i : Nat} {o : Outcome} (fails : o ≠ .processed) (failed : plan.failed i s) (lost : plan.lost s) :
    plan.After i s (.done o) := by
  cases o with
  | processed => exact absurd rfl fails
  | retryable reason => exact failed
  | fatal reason => exact lost

def At (plan : Plan σ κ) (i : Nat) (s : Scene σ) : Stage κ → Prop
  | .fresh => plan.ready i s
  | .handling work _ => plan.working i s work
  | .backingOff _ => plan.failed i s

/-- A handler that keeps to a plan, with so many attempts after the first. -/
structure Obeyed (plan : Plan σ κ) (h : Handler σ κ) (c : Consumer) (message : String) (limit : Nat) : Prop where
  start : ∀ i s, plan.ready i s → plan.After i (h.start s message).1 (h.start s message).2
  finish : ∀ i s work, plan.working i s work → plan.After i (h.finish s work).1 (.done (h.finish s work).2)
  again : ∀ i s, plan.failed i s → s.stopping = false → i < limit → plan.ready (i + 1) s
  exhausted : ∀ i s, plan.failed i s → limit ≤ i → plan.lost s
  abandoned : ∀ i s, plan.failed i s → s.stopping = true → plan.ended .abandoned s
  passedOn : ∀ s bus, plan.lost s → s.bus.publish? c.deadLetterTopic message = some bus →
    plan.ended .deadLettered (s.withBus bus)
  refused : ∀ s, plan.lost s → s.bus.publish? c.deadLetterTopic message = none → plan.ended .deadLetterFailed s

/-- What a delivery is known to stand at. -/
structure Meets (plan : Plan σ κ) (message : String) (limit : Nat) (s : Scene σ) (d : Delivery κ) : Prop where
  message : d.message = message
  limit : d.backoff.limit = limit
  stage : plan.At d.backoff.given s d.stage

/-- What a moment comes to: the counters, and the plan for a delivery that goes on or has ended. -/
structure Comes (plan : Plan σ κ) (message : String) (limit : Nat) (n : ConsumerStats)
    (result : Scene σ × ConsumerStats × Turn κ) : Prop where
  counts : ∃ times, result.2.1 = result.2.2.tally (n.retry times)
  going : ∀ d, result.2.2 = .going d → d.stage ≠ .fresh ∧ plan.Meets message limit result.1 d
  ended : ∀ how, result.2.2 = .ended how → plan.ended how result.1

theorem Comes.of_ended (how : Disposition) (ended : plan.ended how s) :
    plan.Comes message limit n (s, n.count how, .ended how) := by
  refine ⟨⟨0, rfl⟩, nofun, ?_⟩
  rintro _ ⟨⟩
  exact ended

theorem Comes.of_going (waits : d.stage ≠ .fresh) (meets : plan.Meets message limit s d) :
    plan.Comes message limit n (s, n, .going d) := by
  refine ⟨⟨0, rfl⟩, ?_, nofun⟩
  rintro _ ⟨⟩
  exact ⟨waits, meets⟩

theorem Comes.retried {result : Scene σ × ConsumerStats × Turn κ} (times : Nat)
    (comes : plan.Comes message limit (n.retry times) result) : plan.Comes message limit n result := by
  obtain ⟨⟨more, counts⟩, going, ended⟩ := comes
  exact ⟨⟨times + more, by rw [counts, ConsumerStats.retry_retry]⟩, going, ended⟩

variable (obeyed : plan.Obeyed h c message limit)

include obeyed

theorem Obeyed.deadLetter (lost : plan.lost s) : plan.Comes message limit n (deadLetter c s n message) := by
  unfold Delivery.deadLetter
  split
  · rename_i bus accepted
    exact .of_ended .deadLettered (obeyed.passedOn s bus lost accepted)
  · rename_i refused
    exact .of_ended .deadLetterFailed (obeyed.refused s lost refused)

/-- Going on from what the handler came to, if another attempt keeps to the plan. -/
theorem Obeyed.settle (same : d.message = message) (bound : d.backoff.limit = limit)
    (again : ∀ s n, plan.failed d.backoff.given s → plan.Comes message limit n (retry h c s n d))
    {p : Progress κ} (after : plan.After d.backoff.given s p) :
    plan.Comes message limit n (settle h c s n d p) := by
  unfold Delivery.settle
  cases p with
  | waiting work until_ => exact .of_going nofun ⟨same, bound, after⟩
  | done outcome =>
    cases outcome with
    | processed => exact .of_ended .processed after
    | fatal reason =>
      dsimp only
      rw [same]
      exact obeyed.deadLetter after
    | retryable reason => exact again s n after

theorem Obeyed.retry (same : d.message = message) (bound : d.backoff.limit = limit)
    (failed : plan.failed d.backoff.given s) : plan.Comes message limit n (retry h c s n d) := by
  -- on the attempts that are left: a delay that is over at once uses one up
  induction left : d.backoff.remaining using Nat.strongRecOn generalizing s n d with
  | ind left ih =>
    subst left
    unfold Delivery.retry
    split
    · rename_i stopping
      exact .of_ended .abandoned (obeyed.abandoned _ s failed stopping)
    · rename_i running
      split
      · rename_i b polled
        rw [same]
        exact obeyed.deadLetter (obeyed.exhausted _ s failed (bound ▸ Backoff.exhausted_of_poll polled))
      · rename_i until_ b polled
        obtain ⟨_, _, rfl⟩ := Backoff.pending_of_poll polled
        have waits : (.backingOff until_ : Stage κ) ≠ .fresh := by
          intro fresh
          cases fresh
        exact .of_going waits ⟨same, bound, failed⟩
      · rename_i length b polled
        have gives := Backoff.gives_of_poll polled
        have ready := obeyed.again _ s failed ((Bool.not_eq_true _).mp running) (bound ▸ gives.left)
        have started := obeyed.start _ s ready
        rw [← same, ← gives.given] at started
        have next : b.limit = limit := gives.limit.trans bound
        refine Comes.retried 1 (obeyed.settle (d := { d with backoff := b }) same next ?_ started)
        intro s n failed
        exact ih _ (remaining_of_poll polled) same next failed rfl

/-- What a moment of activity comes to. -/
theorem Obeyed.go (meets : plan.Meets message limit s d) : plan.Comes message limit n (go h c s n d) := by
  obtain ⟨same, bound, stage⟩ := meets
  have again : ∀ s n, plan.failed d.backoff.given s → plan.Comes message limit n (Delivery.retry h c s n d) :=
    fun s n failed => obeyed.retry same bound failed
  unfold Delivery.go
  split
  · rename_i fresh
    rw [fresh] at stage
    have started := obeyed.start _ s stage
    rw [← same] at started
    exact obeyed.settle same bound again started
  · rename_i work until_ handling
    rw [handling] at stage
    exact obeyed.settle same bound again (obeyed.finish _ s work stage)
  · rename_i until_ backingOff
    rw [backingOff] at stage
    exact again s n stage

end Plan

/-! ### Whole deliveries -/

/-- What is left of a delivery, in moments: each attempt waits at most twice. -/
def measure (d : Delivery κ) : Nat :=
  2 * d.backoff.remaining + match d.stage with
    | .fresh => 3
    | .handling _ _ => 2
    | .backingOff _ => 1

theorem measure_fresh (c : Consumer) (message : String) : (fresh c message : Delivery κ).measure = moments c := by
  unfold measure fresh moments RetryPolicy.start Backoff.create Backoff.remaining
  dsimp only
  omega

/-- A delivery that waits for another attempt is looked at when it has waited, or when consumers are to stop. -/
def Due (s : Scene σ) (d : Delivery κ) : Prop :=
  ∀ until_, d.stage = .backingOff until_ →
    d.backoff.readyAt? = some until_ ∧ (s.stopping = true ∨ until_ ≤ s.now)

/-- A delivery that goes on has less left than some bound, and remembers when it is to be tried again. -/
structure Shorter (bound : Nat) (turn : Turn κ) : Prop where
  measure : ∀ d, turn = .going d → d.measure < bound
  ready : ∀ d until_, turn = .going d → d.stage = .backingOff until_ → d.backoff.readyAt? = some until_

theorem Shorter.of_ended (bound : Nat) (how : Disposition) : Shorter bound (.ended how : Turn κ) :=
  ⟨nofun, nofun⟩

theorem deadLetter_shorter (bound : Nat) : Shorter bound (deadLetter c s n message : _ × _ × Turn κ).2.2 := by
  unfold deadLetter
  split
  · exact .of_ended bound .deadLettered
  · exact .of_ended bound .deadLetterFailed

theorem settle_shorter {bound : Nat} {p : Progress κ}
    (waits : ∀ work until_, p = .waiting work until_ → 2 * d.backoff.remaining + 2 < bound)
    (again : ∀ s n, Shorter bound (retry h c s n d).2.2) : Shorter bound (settle h c s n d p).2.2 := by
  unfold settle
  cases p with
  | waiting work until_ =>
    constructor
    · rintro _ ⟨⟩
      exact waits work until_ rfl
    · rintro _ until' ⟨⟩ stage
      cases stage
  | done outcome =>
    cases outcome with
    | processed => exact .of_ended bound .processed
    | fatal reason => exact deadLetter_shorter bound
    | retryable reason => exact again s n

theorem retry_shorter {bound : Nat} (enough : 2 * d.backoff.remaining + 1 ≤ bound)
    (early : ∀ until_ b, d.backoff.poll s.now = (.pending until_, b) → 2 * d.backoff.remaining + 1 < bound) :
    Shorter bound (retry h c s n d).2.2 := by
  -- on the attempts that are left: a delay that is over at once uses one up
  induction left : d.backoff.remaining using Nat.strongRecOn generalizing s n d bound with
  | ind left ih =>
    subst left
    unfold retry
    split
    · exact .of_ended bound .abandoned
    · split
      · exact deadLetter_shorter bound
      · rename_i until_ b polled
        have less := early until_ b polled
        obtain ⟨_, _, rfl⟩ := Backoff.pending_of_poll polled
        constructor
        · rintro _ ⟨⟩
          exact less
        · rintro _ until' ⟨⟩ stage
          cases stage
          rfl
      · rename_i length b polled
        have fewer : b.remaining < d.backoff.remaining := remaining_of_poll polled
        refine settle_shorter (d := { d with backoff := b }) (fun _ _ _ => ?_) fun s n => ?_
        · dsimp only
          omega
        · refine ih _ fewer ?_ (fun _ _ _ => ?_) rfl
          · dsimp only
            omega
          · dsimp only
            omega

theorem go_shorter (due : Due s d) : Shorter d.measure (go h c s n d).2.2 := by
  have again : ∀ s n, Shorter (2 * d.backoff.remaining + 2) (retry h c s n d).2.2 :=
    fun s n => retry_shorter (by omega) fun _ _ _ => by omega
  unfold go measure
  cases stage : d.stage with
  | fresh =>
    refine settle_shorter (fun _ _ _ => Nat.lt_succ_self _) fun s n => ?_
    exact retry_shorter (by dsimp only; omega) fun _ _ _ => by dsimp only; omega
  | handling work until_ => exact settle_shorter nofun again
  | backingOff until_ =>
    obtain ⟨ready, time⟩ := due until_ stage
    dsimp only
    rcases time with stopping | waited
    · unfold retry
      rw [if_pos stopping]
      exact .of_ended _ .abandoned
    · refine retry_shorter (Nat.le_refl _) ?_
      intro until' b polled
      -- its time has come, so the wait is not made longer
      obtain ⟨early, same, _⟩ := Backoff.pending_of_poll polled
      rw [ready] at same
      obtain rfl : until' = until_ := same
      exact absurd waited (Nat.not_le_of_lt early)

theorem due_nextMoment {turn : Turn κ} {bound : Nat} (shorter : Shorter bound turn) (going : turn = .going d) :
    Due (s.atTime stopAt? (d.nextMoment stopAt? s)) d := by
  intro until_ backingOff
  refine ⟨shorter.ready d until_ going backingOff, ?_⟩
  unfold nextMoment wakeAt? Scene.atTime
  rw [backingOff]
  cases stopAt? with
  | none => exact Or.inr (Nat.le_max_right _ _)
  | some stop =>
    cases stopping : s.stopping with
    | true => exact Or.inl rfl
    | false =>
      rcases Nat.le_total stop until_ with first | first
      · refine Or.inl ?_
        simp [Nat.min_eq_right first]
      · refine Or.inr ?_
        simp only [Nat.min_eq_left first]
        exact Nat.le_max_right _ _

namespace Plan

variable {plan : Plan σ κ}

/-- What is planned for a wait does not depend on the time or on whether consumers are to stop. -/
structure Steady (plan : Plan σ κ) (stopAt? : Option Nat) : Prop where
  working : ∀ i s work time, plan.working i s work → plan.working i (s.atTime stopAt? time) work
  failed : ∀ i s time, plan.failed i s → plan.failed i (s.atTime stopAt? time)

/-- What a delivery comes to in the end. -/
structure Ends (plan : Plan σ κ) (n : ConsumerStats) (result : Scene σ × ConsumerStats × Disposition) : Prop where
  counts : ∃ times, result.2.1 = (n.retry times).count result.2.2
  ended : plan.ended result.2.2 result.1

theorem Obeyed.runFor (obeyed : plan.Obeyed h c message limit) (steady : plan.Steady stopAt?) {moments : Nat}
    (enough : d.measure ≤ moments) (due : Due s d) (meets : plan.Meets message limit s d) :
    plan.Ends n (runFor h c stopAt? moments s n d) := by
  induction moments generalizing s n d with
  | zero =>
    unfold measure at enough
    split at enough
    · omega
    · omega
    · omega
  | succ moments ih =>
    have comes := obeyed.go (n := n) meets
    have shorter := go_shorter (h := h) (c := c) (n := n) due
    unfold Delivery.runFor
    cases went : Delivery.go h c s n d with
    | mk s' rest =>
      obtain ⟨n', turn⟩ := rest
      rw [went] at comes shorter
      obtain ⟨⟨times, counts⟩, going, ended⟩ := comes
      obtain rfl : n' = turn.tally (n.retry times) := counts
      cases turn with
      | ended how => exact ⟨⟨times, rfl⟩, ended how rfl⟩
      | going d' =>
        obtain ⟨waits, same, bound, stage⟩ := going d' rfl
        have less := shorter.measure d' rfl
        have next : plan.Meets message limit (s'.atTime stopAt? (d'.nextMoment stopAt? s')) d' := by
          refine ⟨same, bound, ?_⟩
          cases state : d'.stage with
          | fresh => exact absurd state waits
          | handling work until_ =>
            rw [state] at stage
            exact steady.working _ s' work _ stage
          | backingOff until_ =>
            rw [state] at stage
            exact steady.failed _ s' _ stage
        obtain ⟨⟨more, counts⟩, ended⟩ := ih (n := n.retry times) (by omega) (due_nextMoment shorter rfl) next
        rw [ConsumerStats.retry_retry] at counts
        exact ⟨⟨times + more, counts⟩, ended⟩

/-- What becomes of a message that is handled from beginning to end. -/
theorem Obeyed.process (obeyed : plan.Obeyed h c message (c.policy.attempts - 1)) (steady : plan.Steady stopAt?)
    (ready : plan.ready 0 (s.atTime stopAt? s.now)) : plan.Ends n (c.process h stopAt? s n message) := by
  refine obeyed.runFor steady (Nat.le_of_eq (measure_fresh c message)) ?_ ⟨rfl, rfl, ready⟩
  intro until_ stage
  cases stage

end Plan

end Delivery

end SoapRelay
