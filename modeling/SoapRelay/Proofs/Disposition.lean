import SoapRelay.Proofs.Heedless
import SoapRelay.Proofs.Noting

/-!
# What becomes of one message

The attempts at a message, if it were handled again and again, give the outcomes that decide what becomes of it.
The first main statement says how many of them are made, how far apart, and what is done after the last one, with
and without a time at which consumers are told to stop. The second is about messages that failed for now as often
as the policy allows: they are passed on, unless consumers were told to stop during the last attempt.
-/

namespace SoapRelay

variable {σ κ : Type}

namespace Delivery

variable {h : Handler σ κ} {c : Consumer} {stopAt? : Option Nat} {message : String} {x : Scene σ} {n : ConsumerStats}
  {stopping : Bool} {stops : Nat → Bool} {exhausted : Prop} {a a' : Attempt σ}
  {again result : Scene σ × ConsumerStats × Disposition}

def close (c : Consumer) (message : String) (s : Scene σ) (n : ConsumerStats) :
    Outcome → Scene σ × ConsumerStats × Disposition
  | .processed => (s, n.count .processed, .processed)
  | _ => passOn c s n message

/-- How a delivery ends with an attempt, where `stops` says when consumers have been told to stop and `exhausted`
that the policy allows no other attempt. -/
inductive Closes (c : Consumer) (stops : Nat → Bool) (message : String) (exhausted : Prop) (a : Attempt σ)
    (n : ConsumerStats) : Scene σ × ConsumerStats × Disposition → Prop where
  | closed (final : a.outcome.isRetryable = false ∨ exhausted ∧ stops a.left.now = false) :
      Closes c stops message exhausted a n
        (close c message (a.left.withStopping (stops a.left.now)) n a.outcome)
  | abandoned {time} (failed : a.outcome.isRetryable = true) (told : stops time = true) (after : a.left.now ≤ time)
      (within : time ≤ a.left.now + c.policy.backoff) (due : time = a.left.now ∨ ¬exhausted) :
      Closes c stops message exhausted a n ({ a.left with now := time, stopping := true }, n, .abandoned)

theorem conclude_final (final : a.outcome.isRetryable = false) :
    conclude c a n again = close c a.message a.left n a.outcome := by
  unfold conclude
  cases ended : a.outcome with
  | processed => rfl
  | fatal reason => rfl
  | retryable reason =>
    rw [ended] at final
    cases final

theorem conclude_failed (failed : a.outcome.isRetryable = true) :
    conclude c a n again = if a.left.stopping then (a.left, n, .abandoned) else again := by
  unfold conclude
  cases ended : a.outcome with
  | retryable reason => rfl
  | processed =>
    rw [ended] at failed
    cases failed
  | fatal reason =>
    rw [ended] at failed
    cases failed

theorem close_failed {s : Scene σ} {o : Outcome} (failed : o.isRetryable = true) :
    close c message s n o = passOn c s n message := by
  cases o with
  | processed => cases failed
  | fatal reason => rfl
  | retryable reason => rfl

theorem close_not_abandoned {s : Scene σ} {o : Outcome} : (close c message s n o).2.2 ≠ .abandoned := by
  have passed : (passOn c s n message).2.2 ≠ .abandoned := by
    unfold passOn
    cases s.bus.publish? c.deadLetterTopic message with
    | none => nofun
    | some bus => nofun
  cases o with
  | processed => nofun
  | fatal reason => exact passed
  | retryable reason => exact passed

theorem conclude_closes (outcome : a'.outcome = a.outcome)
    (left : a'.left = a.left.withStopping (stops a.left.now)) (same : a'.message = message) :
    (a.outcome.isRetryable = true ∧ stops a.left.now = false ∧ conclude c a' n again = again) ∨
      Closes c stops message exhausted a n (conclude c a' n again) := by
  cases failed : a.outcome.isRetryable with
  | false =>
    rw [conclude_final (outcome ▸ failed), same, left, outcome]
    exact Or.inr (.closed (Or.inl failed))
  | true =>
    rw [conclude_failed (outcome ▸ failed), left]
    dsimp only [Scene.withStopping]
    cases told : stops a.left.now with
    | false => exact Or.inl ⟨rfl, rfl, rfl⟩
    | true => exact Or.inr (.abandoned failed told (Nat.le_refl _) (Nat.le_add_right _ _) (Or.inl rfl))

/-- The attempts that a delivery makes are the first ones of those that would be made without end. -/
theorem deliver_closes (heedless : h.Heedless) (message : String) (more : Nat) (running : x.stopping = false)
    (timely : (x.withStopping stopping).Timely stopAt?) :
    ∃ made, made ≤ more ∧
      (∀ i < made, (h.attempts c.policy.backoff message x i).outcome.isRetryable = true ∧
        (x.withStopping stopping).told stopAt?
          ((h.attempts c.policy.backoff message x i).left.now + c.policy.backoff) = false) ∧
      Closes c ((x.withStopping stopping).told stopAt?) message (made = more)
        (h.attempts c.policy.backoff message x made) (n.retry made)
        (deliver h c stopAt? message more (x.withStopping stopping) n) := by
  have below_zero : ∀ {p : Nat → Prop}, ∀ i < 0, p i := fun i below => absurd below (Nat.not_lt_zero i)
  -- on the attempts that are left
  induction more generalizing x stopping n with
  | zero =>
    obtain ⟨outcome, left⟩ := heedless.attempt_told running timely message
    refine ⟨0, Nat.le_refl _, below_zero, ?_⟩
    unfold deliver
    rcases conclude_closes outcome left (h.attempt_message stopAt? _ message) (c := c) (n := n) with
      ⟨failed, still, concluded⟩ | closes
    · dsimp only
      rw [concluded, left]
      have closes : Closes c ((x.withStopping stopping).told stopAt?) message (0 = 0) (h.attempt none x message) n _ :=
        .closed (Or.inr ⟨rfl, still⟩)
      rw [close_failed failed] at closes
      exact closes
    · exact closes
  | succ more ih =>
    obtain ⟨outcome, left⟩ := heedless.attempt_told running timely message
    unfold deliver
    dsimp only
    rcases conclude_closes outcome left (h.attempt_message stopAt? _ message) (c := c) (n := n) with
      ⟨failed, still, concluded⟩ | closes
    · rw [concluded, left, still]
      obtain rfl : stopping = false := (Bool.or_eq_false_iff.mp still).1
      have waits : ((h.attempt none x message).left.withStopping false).stopping = false := rfl
      split
      · rename_i stopped
        have signalled := (Scene.told_waited waits).symm.trans stopped
        obtain ⟨time, told, after, within, cut⟩ := Scene.waited_eq_cut waits still signalled
        rw [cut]
        exact ⟨0, Nat.zero_le _, below_zero, .abandoned failed told after within (Or.inr (Nat.succ_ne_zero _).symm)⟩
      · rename_i goes
        have unheard := (Scene.told_waited waits).symm.trans ((Bool.not_eq_true _).mp goes)
        rw [Scene.waited_eq_later waits unheard]
        have next : ((h.attempt none x message).left.later c.policy.backoff).stopping = false :=
          heedless.attempt_running running message
        have timely : (((h.attempt none x message).left.later c.policy.backoff).withStopping false).Timely stopAt? :=
          unheard
        obtain ⟨made, le, before, closes⟩ := ih (n := n.retry 1) next timely
        simp only [← Handler.attempts_succ] at before closes
        refine ⟨made + 1, Nat.succ_le_succ le, ?_, ?_⟩
        · intro i earlier
          cases i with
          | zero => exact ⟨failed, unheard⟩
          | succ i => exact before i (Nat.lt_of_succ_lt_succ earlier)
        · rw [ConsumerStats.retry_retry, Nat.add_comm 1] at closes
          rw [Nat.add_right_cancel_iff]
          exact closes
    · exact ⟨0, Nat.zero_le _, below_zero, closes⟩

end Delivery

/-! ### What is written down of the attempts -/

inductive Note where
  | began (message : String) (time : Nat)
  | came (outcome : Outcome) (time : Nat)
  deriving DecidableEq, Repr

def Scene.beside {α : Type} (s : Scene σ) (more : α) : Scene (σ × α) :=
  ⟨s.now, s.bus, s.stopping, (s.env, more)⟩

def Progress.notes (time : Nat) : Progress κ → List Note
  | .done o => [.came o time]
  | .waiting _ _ => []

/-- The handler that writes down beside what it does which message it begins with, what it comes to, and when. -/
def Handler.watched (h : Handler σ κ) : Handler (σ × List Note) κ where
  start s message :=
    let r := h.start (s.seen Prod.fst) message
    (r.1.beside (s.env.2 ++ .began message s.now :: r.2.notes r.1.now), r.2)
  finish s work :=
    let r := h.finish (s.seen Prod.fst) work
    (r.1.beside (s.env.2 ++ [.came r.2 r.1.now]), r.2)

/-- What is written down while a message is handled from beginning to end. -/
def Consumer.record (c : Consumer) (h : Handler σ κ) (stopAt? : Option Nat) (s : Scene σ) (n : ConsumerStats)
    (message : String) : List Note :=
  (c.process h.watched stopAt? (s.beside []) n message).1.env.2

namespace Attempt

def notes (a : Attempt σ) : List Note :=
  [.began a.message a.begun.now, .came a.outcome a.left.now]

def notesTo (attempts : Nat → Attempt σ) (made : Nat) : List Note :=
  (List.range made).flatMap fun i => (attempts i).notes

theorem notesTo_succ (attempts : Nat → Attempt σ) (made : Nat) :
    notesTo attempts (made + 1) = notesTo attempts made ++ (attempts made).notes := by
  simp [notesTo, List.range_succ]

theorem length_notesTo (attempts : Nat → Attempt σ) (made : Nat) : (notesTo attempts made).length = 2 * made := by
  induction made with
  | zero => rfl
  | succ made ih =>
    rw [notesTo_succ, List.length_append, ih]
    rfl

theorem notesTo_injective {attempts : Nat → Attempt σ} {made more : Nat}
    (same : notesTo attempts made = notesTo attempts more) : made = more := by
  have lengths := congrArg List.length same
  rw [length_notesTo, length_notesTo] at lengths
  omega

def beside (a : Attempt σ) (before : List Note) : Attempt (σ × List Note) :=
  ⟨a.message, a.begun.beside before, a.left.beside (before ++ a.notes), a.outcome⟩

end Attempt

namespace Handler

variable {h : Handler σ κ}

theorem watched_shows (h : Handler σ κ) : h.watched.Shows Prod.fst h :=
  ⟨fun _ _ => rfl, fun _ _ => rfl⟩

theorem Heedless.watched (heedless : h.Heedless) : h.watched.Heedless := by
  refine ⟨?_, ?_, ?_, ?_⟩
  · intro s message
    exact heedless.start_now _ message
  · intro s work
    exact heedless.finish_now _ work
  · intro s message stopping
    exact congrArg (fun r => (r.1.beside (s.env.2 ++ .began message s.now :: r.2.notes r.1.now), r.2))
      (heedless.start (s.seen Prod.fst) message stopping)
  · intro s work stopping
    exact congrArg (fun r => (r.1.beside (s.env.2 ++ [.came r.2 r.1.now]), r.2))
      (heedless.finish (s.seen Prod.fst) work stopping)

theorem watched_attempt (h : Handler σ κ) (message : String) (s : Scene σ) (before : List Note) :
    h.watched.attempt none (s.beside before) message = (h.attempt none s message).beside before := by
  have started : h.watched.start (s.beside before) message =
      ((h.start s message).1.beside
        (before ++ .began message s.now :: (h.start s message).2.notes (h.start s message).1.now),
        (h.start s message).2) := rfl
  unfold attempt
  rw [started]
  cases h.start s message with
  | mk s' p =>
    cases p with
    | done o => rfl
    | waiting work until_ =>
      have finished : h.watched.finish ((s'.beside (before ++ [.began message s.now])).atTime none until_) work =
          ((h.finish (s'.atTime none until_) work).1.beside ((before ++ [.began message s.now]) ++
            [.came (h.finish (s'.atTime none until_) work).2 (h.finish (s'.atTime none until_) work).1.now]),
            (h.finish (s'.atTime none until_) work).2) := rfl
      rw [List.append_assoc] at finished
      exact congrArg (fun r => Attempt.mk message (s.beside before) r.1 r.2) finished

theorem watched_attempts (h : Handler σ κ) (delay : Nat) (message : String) (s : Scene σ) (before : List Note) (i : Nat) :
    h.watched.attempts delay message (s.beside before) i =
      (h.attempts delay message s i).beside (before ++ Attempt.notesTo (h.attempts delay message s) i) := by
  induction i with
  | zero =>
    rw [show Attempt.notesTo (h.attempts delay message s) 0 = [] from rfl, List.append_nil]
    exact watched_attempt h message s before
  | succ i ih =>
    unfold attempts
    rw [ih, Attempt.notesTo_succ, ← List.append_assoc]
    exact watched_attempt h message ((h.attempts delay message s i).left.later delay) _

end Handler

namespace Delivery

variable {h : Handler σ κ} {c : Consumer} {stopAt? : Option Nat} {message : String} {s : Scene σ} {n : ConsumerStats}
  {stops : Nat → Bool} {exhausted : Prop} {a : Attempt σ} {before : List Note}

theorem close_beside (c : Consumer) (message : String) (s : Scene σ) (n : ConsumerStats) (o : Outcome) (log : List Note) :
    close c message (s.beside log) n o =
      ((close c message s n o).1.beside log, (close c message s n o).2) := by
  have passed : passOn c (s.beside log) n message =
      ((passOn c s n message).1.beside log, (passOn c s n message).2) := by
    unfold passOn
    rw [show (s.beside log).bus = s.bus from rfl]
    cases s.bus.publish? c.deadLetterTopic message with
    | none => rfl
    | some bus => rfl
  cases o with
  | processed => rfl
  | fatal reason => exact passed
  | retryable reason => exact passed

/-- A delivery whose attempts are written down ends as it would without. -/
theorem Closes.seen {result : Scene (σ × List Note) × ConsumerStats × Disposition}
    (closes : Closes c stops message exhausted (a.beside before) n result) :
    Closes c stops message exhausted a n (seen Prod.fst result) ∧ result.1.env.2 = before ++ a.notes := by
  cases closes with
  | closed final =>
    have beside := close_beside c message (a.left.withStopping (stops a.left.now)) n a.outcome (before ++ a.notes)
    change Closes c stops message exhausted a n (Delivery.seen Prod.fst (close c message
      ((a.left.withStopping (stops a.left.now)).beside (before ++ a.notes)) n a.outcome)) ∧
      (close c message ((a.left.withStopping (stops a.left.now)).beside (before ++ a.notes)) n a.outcome).1.env.2 = _
    rw [beside]
    exact ⟨.closed final, rfl⟩
  | abandoned failed told after within due => exact ⟨.abandoned failed told after within due, rfl⟩

theorem Closes.congr {stops' : Nat → Bool} {result : Scene σ × ConsumerStats × Disposition}
    (closes : Closes c stops message exhausted a n result) (same : ∀ time, a.left.now ≤ time → stops time = stops' time) :
    Closes c stops' message exhausted a n result := by
  have here := same a.left.now (Nat.le_refl _)
  cases closes with
  | closed final =>
    rw [here] at final ⊢
    exact .closed final
  | abandoned failed told after within due => exact .abandoned failed ((same _ after).symm.trans told) after within due

theorem Closes.ways {result : Scene σ × ConsumerStats × Disposition}
    (closes : Closes c stops message exhausted a n result) :
    ((a.outcome.isRetryable = false ∨ exhausted ∧ stops a.left.now = false) ∧
        result = close c message (a.left.withStopping (stops a.left.now)) n a.outcome) ∨
      (a.outcome.isRetryable = true ∧ ∃ time, stops time = true ∧ a.left.now ≤ time ∧
        time ≤ a.left.now + c.policy.backoff ∧ (time = a.left.now ∨ ¬exhausted) ∧
        result = ({ a.left with now := time, stopping := true }, n, .abandoned)) := by
  cases closes with
  | closed final => exact Or.inl ⟨final, rfl⟩
  | abandoned failed told after within due => exact Or.inr ⟨failed, _, told, after, within, due, rfl⟩

theorem process_closes (heedless : h.Heedless) (running : s.stopping = false) (c : Consumer) (stopAt? : Option Nat)
    (n : ConsumerStats) (message : String) :
    ∃ made, made ≤ c.policy.attempts - 1 ∧
      (∀ i < made, (h.attempts c.policy.backoff message s i).outcome.isRetryable = true ∧
        s.told stopAt? ((h.attempts c.policy.backoff message s i).left.now + c.policy.backoff) = false) ∧
      c.record h stopAt? s n message = Attempt.notesTo (h.attempts c.policy.backoff message s) (made + 1) ∧
      Closes c (s.told stopAt?) message (made = c.policy.attempts - 1)
        (h.attempts c.policy.backoff message s made) (n.retry made) (c.process h stopAt? s n message) := by
  have watched := heedless.watched
  have scene : (s.beside ([] : List Note)).atTime stopAt? s.now =
      (s.beside []).withStopping (s.told stopAt? s.now) := by
    rw [Scene.atTime_eq, show (s.beside ([] : List Note)).now = s.now from rfl, Nat.max_self]
    rfl
  have timely := Scene.timely_atTime_now (s.beside ([] : List Note)) stopAt?
  have ran := Consumer.process_eq_deliver watched.punctual c stopAt? (s.beside []) n message
  rw [show (s.beside ([] : List Note)).now = s.now from rfl, scene] at timely ran
  obtain ⟨made, le, failed, closes⟩ :=
    deliver_closes (c := c) (n := n) watched message (c.policy.attempts - 1) running timely
  have later : ∀ time, s.now ≤ time →
      ((s.beside ([] : List Note)).withStopping (s.told stopAt? s.now)).told stopAt? time = s.told stopAt? time := by
    intro time after
    rw [← scene]
    exact Scene.told_atTime after
  simp only [Handler.watched_attempts, List.nil_append] at failed closes
  rw [← ran] at closes
  obtain ⟨closes, record⟩ := closes.seen
  rw [process_seen h.watched_shows] at closes
  refine ⟨made, le, ?_, ?_, ?_⟩
  · intro i earlier
    obtain ⟨retryable, unheard⟩ := failed i earlier
    refine ⟨retryable, ?_⟩
    rw [← later _ (Nat.le_add_right_of_le (heedless.attempts_now c.policy.backoff message s i))]
    exact unheard
  · rw [Attempt.notesTo_succ]
    exact record
  · exact closes.congr fun time after => later time (Nat.le_trans (heedless.attempts_now _ message s made) after)

end Delivery

/-! ### With and without a time at which consumers are told to stop -/

/-- The first attempt that does not fail for now, or the last one that the policy allows. -/
structure RetryPolicy.Last (p : RetryPolicy) (outcomes : Nat → Outcome) (last : Nat) : Prop where
  allowed : last < max 1 p.attempts
  failed : ∀ i < last, (outcomes i).isRetryable = true
  final : (outcomes last).isRetryable = false ∨ last + 1 = max 1 p.attempts

theorem RetryPolicy.Last.le {p : RetryPolicy} {outcomes : Nat → Outcome} {last made : Nat} (is_last : p.Last outcomes last)
    (allowed : made < max 1 p.attempts) (failed : ∀ i < made, (outcomes i).isRetryable = true) : made ≤ last := by
  apply Nat.le_of_not_lt
  intro above
  rcases is_last.final with final | exhausted
  · rw [failed last above] at final
    cases final
  · omega

theorem RetryPolicy.Last.unique {p : RetryPolicy} {outcomes : Nat → Outcome} {last made : Nat}
    (is_last : p.Last outcomes last) (is_made : p.Last outcomes made) : made = last :=
  Nat.le_antisymm (is_last.le is_made.allowed is_made.failed) (is_made.le is_last.allowed is_last.failed)

namespace Consumer

variable {h : Handler σ κ} {s : Scene σ}

/-- A message is handled until it is done with or the policy allows no other attempt, always a delay after the
failure before, and once it ends it is counted once. When consumers are told to stop, this is cut short. -/
theorem message_is_disposed_of (heedless : h.Heedless) (running : s.stopping = false) (c : Consumer)
    (n : ConsumerStats) (message : String) :
    let attempts := h.attempts c.policy.backoff message s
    (∀ i, (attempts i).message = message ∧
        (attempts (i + 1)).begun.now = (attempts i).left.now + c.policy.backoff) ∧
      ∃ last, c.policy.Last (fun i => (attempts i).outcome) last ∧
        c.record h none s n message = Attempt.notesTo attempts (last + 1) ∧
        c.process h none s n message =
          Delivery.close c message (attempts last).left (n.retry last) (attempts last).outcome ∧
        ∀ stopAt, ∃ made, made ≤ last ∧
          c.record h (some stopAt) s n message = Attempt.notesTo attempts (made + 1) ∧
          (∀ i, 0 < i → i ≤ made → (attempts i).begun.now < stopAt) ∧
          (made = last ∧ (∃ told, c.process h (some stopAt) s n message =
              Delivery.close c message ((attempts last).left.withStopping told) (n.retry last) (attempts last).outcome) ∨
            (attempts made).outcome.isRetryable = true ∧ ∃ time, stopAt ≤ time ∧ (attempts made).left.now ≤ time ∧
              time ≤ (attempts made).left.now + c.policy.backoff ∧
              c.process h (some stopAt) s n message =
                ({ (attempts made).left with now := time, stopping := true }, n.retry made, .abandoned)) := by
  intro attempts
  have allowed : ∀ {made}, made ≤ c.policy.attempts - 1 → made < max 1 c.policy.attempts := by omega
  have exhausted : ∀ {made}, made = c.policy.attempts - 1 → made + 1 = max 1 c.policy.attempts := by omega
  have spaced : ∀ i, (attempts (i + 1)).begun.now = (attempts i).left.now + c.policy.backoff := by
    intro i
    exact congrArg Scene.now (h.attempt_begun none ((attempts i).left.later c.policy.backoff) message)
  refine ⟨fun i => ⟨h.attempts_message c.policy.backoff message s i, spaced i⟩, ?_⟩
  obtain ⟨last, le, failed, record, closes⟩ := Delivery.process_closes heedless running c none n message
  have untold : ∀ time, s.told none time = false := fun _ => (Bool.or_false _).trans running
  have calm := heedless.attempts_calm c.policy.backoff running message last
  rcases closes.ways with ⟨final, result⟩ | ⟨-, time, told, -⟩
  · have is_last : c.policy.Last (fun i => (attempts i).outcome) last :=
      ⟨allowed le, fun i earlier => (failed i earlier).1, final.imp_right fun at_end => exhausted at_end.1⟩
    rw [untold, calm] at result
    refine ⟨last, is_last, record, result, ?_⟩
    intro stopAt
    obtain ⟨made, le, failed, record, closes⟩ := Delivery.process_closes heedless running c (some stopAt) n message
    have unheard : ∀ {time}, s.told (some stopAt) time = false → time < stopAt := by
      intro time told
      simpa [Scene.told, running] using told
    have retryable : ∀ i < made, (attempts i).outcome.isRetryable = true := fun i earlier => (failed i earlier).1
    refine ⟨made, is_last.le (allowed le) retryable, record, ?_, ?_⟩
    · intro i positive within
      obtain ⟨i, rfl⟩ := Nat.exists_eq_add_one.mpr positive
      rw [spaced]
      exact unheard (failed i within).2
    · rcases closes.ways with ⟨final, ended⟩ | ⟨failed, time, told, after, within, -, ended⟩
      · have is_made : c.policy.Last (fun i => (attempts i).outcome) made :=
          ⟨allowed le, retryable, final.imp_right fun at_end => exhausted at_end.1⟩
        obtain rfl := is_last.unique is_made
        exact Or.inl ⟨rfl, _, ended⟩
      · obtain ⟨t, stops, before⟩ := (Scene.told_running running).mp told
        obtain rfl := Option.some.inj stops
        exact Or.inr ⟨failed, time, before, after, within, ended⟩
  · rw [untold] at told
    cases told

/-- One text that fails for now twice, the first time after a while. -/
def busy : Scene Script :=
  ⟨0, .empty, false, ⟨⟨[("m", [⟨.retryable "busy", 50⟩, ⟨.retryable "busy", 0⟩])]⟩, []⟩⟩

theorem message_is_disposed_of_busy :
    let c : Consumer := ⟨"t", ".DLT", 1, ⟨2, 100⟩⟩
    busy.stopping = false ∧
      c.record Script.handler none busy .zero "m" =
        [.began "m" 0, .came (.retryable "busy") 50, .began "m" 150, .came (.retryable "busy") 150] ∧
      (c.process Script.handler none busy .zero "m").2 = (⟨0, 1, 1, 0⟩, .deadLettered) ∧
      c.record Script.handler (some 120) busy .zero "m" = [.began "m" 0, .came (.retryable "busy") 50] := by
  intro c
  obtain ⟨-, last, is_last, record, ended, told⟩ :=
    message_is_disposed_of Script.handler_heedless (rfl : busy.stopping = false) c .zero "m"
  have second : c.policy.Last (fun i => (Script.handler.attempts 100 "m" busy i).outcome) 1 :=
    ⟨by decide, by decide +kernel, by decide +kernel⟩
  obtain rfl := second.unique is_last
  obtain ⟨made, le, stopped, before, -⟩ := told 120
  have first : made = 0 := by
    apply Nat.eq_zero_of_not_pos
    intro again
    have after : ¬ (Script.handler.attempts 100 "m" busy 1).begun.now < 120 := by decide +kernel
    exact after (before 1 Nat.one_pos again)
  subst first
  refine ⟨rfl, record.trans ?_, (congrArg Prod.snd ended).trans ?_, stopped.trans ?_⟩
  · decide +kernel
  · decide +kernel
  · decide +kernel

/-- A message that failed for now at its last attempt is passed on only if consumers were not told to stop by the end
of that attempt, and else it is dropped, as one is that waits for another attempt. -/
theorem exhausted_message_is_passed_on_unless_told (heedless : h.Heedless) (running : s.stopping = false) (c : Consumer)
    (stopAt? : Option Nat) (n : ConsumerStats) (message : String) :
    let attempts := h.attempts c.policy.backoff message s
    let last := attempts (c.policy.attempts - 1)
    (c.record h stopAt? s n message = Attempt.notesTo attempts (max 1 c.policy.attempts) →
        last.outcome.isRetryable = true →
        c.process h stopAt? s n message =
          if s.told stopAt? last.left.now then
            ({ last.left with stopping := true }, n.retry (c.policy.attempts - 1), .abandoned)
          else Delivery.passOn c last.left (n.retry (c.policy.attempts - 1)) message) ∧
      ((c.process h stopAt? s n message).2.2 = .abandoned →
        ∃ made, made < max 1 c.policy.attempts ∧
          c.record h stopAt? s n message = Attempt.notesTo attempts (made + 1) ∧
          (attempts made).outcome.isRetryable = true ∧ ∃ time, s.told stopAt? time = true ∧
            (attempts made).left.now ≤ time ∧ time ≤ (attempts made).left.now + c.policy.backoff ∧
            (made + 1 = max 1 c.policy.attempts → time = (attempts made).left.now)) := by
  intro attempts last
  obtain ⟨made, le, failed, record, closes⟩ := Delivery.process_closes heedless running c stopAt? n message
  refine ⟨?_, ?_⟩
  · intro all retryable
    have made_all : made + 1 = max 1 c.policy.attempts := Attempt.notesTo_injective (record.symm.trans all)
    obtain rfl : made = c.policy.attempts - 1 := by omega
    have calm : last.left.withStopping false = last.left := heedless.attempts_calm _ running message _
    rcases closes.ways with ⟨final | ⟨-, untold⟩, ended⟩ | ⟨-, time, told, -, -, here | more, ended⟩
    · cases retryable.symm.trans final
    · rw [ended, Delivery.close_failed retryable, untold]
      exact congrArg (Delivery.passOn c · _ message) calm
    · subst here
      rw [ended, if_pos told]
    · exact absurd rfl more
  · intro abandoned
    rcases closes.ways with ⟨final, ended⟩ | ⟨retryable, time, told, after, within, due, ended⟩
    · rw [ended] at abandoned
      exact absurd abandoned Delivery.close_not_abandoned
    · refine ⟨made, by omega, record, retryable, time, told, after, within, ?_⟩
      intro all
      exact due.resolve_right fun more => more (by omega)

theorem record_eq_deliver (heedless : h.Heedless) (c : Consumer) (stopAt? : Option Nat) (s : Scene σ) (n : ConsumerStats)
    (message : String) :
    c.record h stopAt? s n message =
      (Delivery.deliver h.watched c stopAt? message (c.policy.attempts - 1) ((s.beside []).atTime stopAt? s.now) n).1.env.2 := by
  unfold record
  rw [process_eq_deliver heedless.watched.punctual]
  rfl

theorem exhausted_message_is_passed_on_of_busy :
    let c : Consumer := ⟨"t", ".DLT", 1, ⟨2, 100⟩⟩
    busy.stopping = false ∧
      c.record Script.handler (some 200) busy .zero "m" =
        [.began "m" 0, .came (.retryable "busy") 50, .began "m" 150, .came (.retryable "busy") 150] ∧
      (c.process Script.handler (some 200) busy .zero "m").2 = (⟨0, 1, 1, 0⟩, .deadLettered) := by
  intro c
  have record : c.record Script.handler (some 200) busy .zero "m" =
      [.began "m" 0, .came (.retryable "busy") 50, .began "m" 150, .came (.retryable "busy") 150] := by
    rw [record_eq_deliver Script.handler_heedless]
    decide +kernel
  obtain ⟨passed, -⟩ := exhausted_message_is_passed_on_unless_told Script.handler_heedless
    (rfl : busy.stopping = false) c (some 200) .zero "m"
  have ended := passed (record.trans (by decide +kernel)) (by decide +kernel)
  refine ⟨rfl, record, (congrArg Prod.snd ended).trans ?_⟩
  decide +kernel

/-- Consumers that are told to stop during the only attempt drop the message, though nothing was waited for. -/
theorem exhausted_message_is_dropped :
    let c : Consumer := ⟨"t", ".DLT", 1, ⟨1, 100⟩⟩
    c.record Script.handler (some 20) busy .zero "m" = [.began "m" 0, .came (.retryable "busy") 50] ∧
      (c.process Script.handler (some 20) busy .zero "m").2 = (.zero, .abandoned) ∧
      ((c.process Script.handler (some 20) busy .zero "m").1.bus.topic c.deadLetterTopic).waiting = [] := by
  intro c
  rw [record_eq_deliver Script.handler_heedless, process_eq_deliver Script.handler_heedless.punctual]
  refine ⟨?_, ?_, ?_⟩
  · decide +kernel
  · decide +kernel
  · decide +kernel

end Consumer

end SoapRelay
