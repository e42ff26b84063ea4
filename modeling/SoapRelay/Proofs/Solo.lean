import Mathlib.Algebra.BigOperators.Group.Finset.Basic
import SoapRelay.Proofs.Delivery
import SoapRelay.Proofs.Forward
import SoapRelay.Proofs.Worker

/-!
# The attempts at a single call

One call is made, with nobody else around. When each attempt at it begins and ends follows from how long
the outbound calls take and from the backoff; what the consumer of the requests does is told attempt by
attempt.
-/

namespace SoapRelay

/-- Whatever one side signs, the other accepts. -/
def Signer.Reaches (a b : Signer) : Prop :=
  ∀ content, ∃ token, a.token? content = some token ∧ b.accepts content token = true

theorem Signer.Reaches.sign {ε : Type} [Signable ε] {a b : Signer} (reaches : a.Reaches b) (envelope : ε) :
    ∃ token, a.sign? envelope = some (Signable.withSignature envelope token) ∧ separator ∉ token.toList ∧
      b.accepts (Signable.unsigned envelope) token = true := by
  obtain ⟨token, given, accepted⟩ := reaches (Signable.unsigned envelope)
  refine ⟨token, ?_, Signer.separator_not_mem_token given, accepted⟩
  rw [Signer.sign?, given]
  rfl

/-- A call and the two sides it goes through, with the TLS context that is meant for it. -/
structure Solo where
  client : Client
  platform : Platform
  requests : Consumer
  replies : Consumer
  /-- How the registry spreads its calls by their ids. -/
  hash : String → UInt64
  reaper? : Option Reaper
  name : String
  request : ForwardRequest
  context : Tls.Context

namespace Solo

variable {x : Solo} {j last : Nat} {s s' s'' : Scene Traffic} {body? : Option String} {d : Delivery CallWork}

def id (_ : Solo) : CallId := .numbered 1

def signed (x : Solo) : Request :=
  (x.client.signer.sign? (Client.request x.id x.request)).getD (Client.request x.id x.request)

/-- What is published for the call. -/
def line (x : Solo) : String := x.signed.encode

def deadline (x : Solo) : Nat := x.client.deadlines.waitFor x.request.context x.request.payload

def attempts (x : Solo) : Nat := max 1 x.requests.policy.attempts

/-- When an attempt begins if all before it fail for now, and the outbound calls made until then. -/
def course (x : Solo) : Nat → Nat × List OutboundCall
  | 0 => (0, [])
  | i + 1 =>
    let (at_, earlier) := x.course i
    let call := x.platform.callFor at_ x.signed x.context
    (at_ + (x.platform.transport earlier call).after + x.requests.policy.backoff, earlier ++ [call])

def begins (x : Solo) (i : Nat) : Nat := (x.course i).1

def before (x : Solo) (i : Nat) : List OutboundCall := (x.course i).2

def call (x : Solo) (i : Nat) : OutboundCall := x.platform.callFor (x.begins i) x.signed x.context

def answer (x : Solo) (i : Nat) : CallAnswer := x.platform.transport (x.before i) (x.call i)

def took (x : Solo) (i : Nat) : Nat := (x.answer i).after

def ends (x : Solo) (i : Nat) : Nat := x.begins i + x.took i

/-- An attempt whose outbound call may succeed when it is made again. -/
def Fails (x : Solo) (i : Nat) : Prop :=
  ∃ error, (x.answer i).result = .error error ∧ error.isTransient = true

/-- The last attempt and what comes of it: a text, or nothing once no attempt is left. -/
structure Closes (x : Solo) (last : Nat) (body? : Option String) : Prop where
  inside : last < x.attempts
  fails : ∀ j < last, x.Fails j
  replied : ∀ body, body? = some body → (x.answer last).result = .ok body
  exhausted : body? = none → x.Fails last ∧ last + 1 = x.attempts

/-- Every topic has a name of its own, each side accepts what the other signs, the organization of the call
has the context, and the deadline can be told. -/
structure Apt (x : Solo) : Prop where
  topics : [x.requests.topic, x.replies.topic, x.requests.deadLetterTopic, x.replies.deadLetterTopic].Nodup
  requests : x.client.requestsTopic = x.requests.topic
  replies : x.platform.repliesTopic = x.replies.topic
  there : x.client.signer.Reaches x.platform.signer
  back : x.platform.signer.Reaches x.client.signer
  resolved : x.platform.resolver.contextFor (x.request.organization?.getD "") = .ok x.context
  timely : x.deadline ≤ Clock.latest

/-! ### Times -/

theorem begins_succ (i : Nat) : x.begins (i + 1) = x.ends i + x.requests.policy.backoff := rfl

theorem before_succ (i : Nat) : x.before (i + 1) = x.before i ++ [x.call i] := rfl

theorem length_before (i : Nat) : (x.before i).length = i := by
  induction i with
  | zero => rfl
  | succ i ih => rw [before_succ, List.length_append, ih, List.length_singleton]

theorem begins_le (i more : Nat) : x.begins i ≤ x.begins (i + more) := by
  induction more with
  | zero => exact Nat.le_refl _
  | succ more ih =>
    have next : x.begins (i + (more + 1)) = x.ends (i + more) + x.requests.policy.backoff := begins_succ (i + more)
    have ends : x.ends (i + more) = x.begins (i + more) + x.took (i + more) := rfl
    omega

theorem begins_le_ends (early : j ≤ last) : x.begins j ≤ x.ends last := by
  have first := begins_le (x := x) j (last - j)
  rw [Nat.add_sub_of_le early] at first
  exact Nat.le_trans first (Nat.le_add_right _ _)

theorem ends_le_ends (early : j ≤ last) : x.ends j ≤ x.ends last := by
  rcases Nat.lt_or_ge j last with before | after
  · have next := begins_le_ends (x := x) (Nat.succ_le_of_lt before)
    rw [Nat.succ_eq_add_one, begins_succ] at next
    omega
  · obtain rfl : j = last := by omega
    exact Nat.le_refl _

theorem ends_eq_sum (i : Nat) : x.ends i = (∑ j ∈ Finset.range (i + 1), x.took j) + i * x.requests.policy.backoff := by
  induction i with
  | zero =>
    have start : x.ends 0 = 0 + x.took 0 := rfl
    rw [start, Finset.sum_range_one]
    omega
  | succ i ih =>
    have ends : x.ends (i + 1) = x.begins (i + 1) + x.took (i + 1) := rfl
    rw [ends, begins_succ, ih, Finset.sum_range_succ _ (i + 1), Nat.succ_mul]
    omega

/-! ### What is published -/

theorem signed_eq (apt : x.Apt) : ∃ token, x.client.signer.sign? (Client.request x.id x.request) = some x.signed ∧
    x.signed = { Client.request x.id x.request with signature := token } ∧ separator ∉ token.toList ∧
      x.platform.signer.verify x.signed = true := by
  obtain ⟨token, made, clean, accepted⟩ := apt.there.sign (Client.request x.id x.request)
  have same : x.signed = { Client.request x.id x.request with signature := token } := by
    rw [signed, made]
    rfl
  rw [same]
  exact ⟨token, made, rfl, clean, accepted⟩

theorem screen_line (apt : x.Apt) : x.platform.screen x.line = .ok (x.signed, x.context) := by
  obtain ⟨token, _, same, clean, verified⟩ := signed_eq apt
  have read : Request.decode x.line = .ok x.signed := by
    refine Request.decode_encode ?_
    rw [same]
    exact clean
  have organization : x.signed.organization = x.request.organization?.getD "" := by
    rw [same]
    rfl
  rw [Platform.screen, read]
  dsimp only
  rw [if_pos verified, organization, apt.resolved]

/-- A message that the client side takes for the reply to the call. -/
def Speaks (x : Solo) (line body : String) : Prop :=
  ∃ reply, Reply.decode line = .ok reply ∧ reply.id = x.id ∧ reply.response = body ∧
    x.client.signer.verify reply = true

/-! ### One attempt after the other -/

def work (x : Solo) (i : Nat) : CallWork := ⟨x.id, (x.answer i).result⟩

/-- What is left of the delays once some attempts have failed. -/
def backoff (x : Solo) (failed : Nat) (readyAt? : Option Nat) : Backoff :=
  ⟨x.requests.policy.backoff, x.requests.policy.attempts - 1, failed, readyAt?⟩

def handling (x : Solo) (i : Nat) : Delivery CallWork :=
  ⟨x.line, x.backoff i none, .handling (x.work i) (x.ends i)⟩

def backingOff (x : Solo) (i : Nat) : Delivery CallWork :=
  ⟨x.line, x.backoff i (some (x.begins (i + 1))), .backingOff (x.begins (i + 1))⟩

/-- The delivery of the request between two moments of activity, after some attempts. -/
inductive Flies (x : Solo) (last now : Nat) : Nat → Delivery CallWork → Prop where
  | handling {i : Nat} (inside : i ≤ last) (early : now < x.ends i) : Flies x last now i (x.handling i)
  | backingOff {i : Nat} (inside : i < last) (early : now < x.begins (i + 1)) : Flies x last now i (x.backingOff i)

structure Live (x : Solo) (s : Scene Traffic) : Prop where
  running : s.stopping = false
  replies : (s.bus.topic x.replies.topic).subscription ≠ .gone
  deadLetters : (s.bus.topic x.requests.deadLetterTopic).subscription ≠ .gone

/-- Two scenes that differ in the bus, the outbound calls and what was signed at most. -/
structure Beside (s s' : Scene Traffic) : Prop where
  now : s'.now = s.now
  stopping : s'.stopping = s.stopping
  desk : s'.env.desk = s.env.desk

theorem Beside.refl (s : Scene Traffic) : Beside s s := ⟨rfl, rfl, rfl⟩

theorem Beside.trans (first : Beside s s') (second : Beside s' s'') : Beside s s'' :=
  ⟨second.now.trans first.now, second.stopping.trans first.stopping, second.desk.trans first.desk⟩

/-- What a moment of activity makes of the request: its delivery goes on, or it ends with the last
attempt, with a reply or as a dead letter. -/
inductive Turns (x : Solo) (last : Nat) (body? : Option String) (s : Scene Traffic) :
    Scene Traffic × ConsumerStats × Turn CallWork → Prop where
  | going {s' : Scene Traffic} {i : Nat} {d : Delivery CallWork} (beside : Beside s s') (bus : s'.bus = s.bus)
      (calls : s'.env.calls = x.before (i + 1)) (flies : x.Flies last s.now i d) :
      Turns x last body? s (s', ⟨0, i, 0, 0⟩, .going d)
  | replied {s' : Scene Traffic} {body line : String} (beside : Beside s s') (arrived : s.now = x.ends last)
      (result : body? = some body) (speaks : x.Speaks line body) (topics : ∀ topic, s'.bus.topic topic =
        if topic = x.replies.topic then (s.bus.topic x.replies.topic).accept line else s.bus.topic topic) :
      Turns x last body? s (s', ⟨1, last, 0, 0⟩, .ended .processed)
  | deadLettered {s' : Scene Traffic} (beside : Beside s s') (arrived : s.now = x.ends last) (result : body? = none)
      (topics : ∀ topic, s'.bus.topic topic = if topic = x.requests.deadLetterTopic then
        (s.bus.topic x.requests.deadLetterTopic).accept x.line else s.bus.topic topic) :
      Turns x last body? s (s', ⟨0, last, 1, 0⟩, .ended .deadLettered)

theorem Turns.beside {result : Scene Traffic × ConsumerStats × Turn CallWork} (beside : Beside s s')
    (bus : s'.bus = s.bus) (turns : x.Turns last body? s' result) : x.Turns last body? s result := by
  cases turns with
  | going next same calls flies => exact .going (beside.trans next) (same.trans bus) calls (beside.now ▸ flies)
  | replied next arrived result speaks topics =>
    rw [bus] at topics
    exact .replied (beside.trans next) (beside.now ▸ arrived) result speaks topics
  | deadLettered next arrived result topics =>
    rw [bus] at topics
    exact .deadLettered (beside.trans next) (beside.now ▸ arrived) result topics

structure Begins (x : Solo) (i : Nat) (s : Scene Traffic) : Prop where
  now : s.now = x.begins i
  calls : s.env.calls = x.before i
  live : x.Live s

structure Ends (x : Solo) (i : Nat) (s : Scene Traffic) : Prop where
  now : s.now = x.ends i
  calls : s.env.calls = x.before (i + 1)
  live : x.Live s

structure Carries (d : Delivery CallWork) (line : String) (backoff : Backoff) : Prop where
  message : d.message = line
  backoff : d.backoff = backoff

def invoked (x : Solo) (i : Nat) (s : Scene Traffic) : Scene Traffic :=
  s.withEnv { s.env with invocations := s.env.invocations ++ [⟨x.id, x.call i⟩] }

theorem start_begins (apt : x.Apt) (begins : x.Begins j s) :
    x.platform.start s x.line =
      if x.took j = 0 then
        ((x.platform.finish (x.invoked j s) (x.work j)).1, .done (x.platform.finish (x.invoked j s) (x.work j)).2)
      else (x.invoked j s, .waiting (x.work j) (x.ends j)) := by
  have id : x.signed.id = x.id := by
    obtain ⟨token, _, same, _⟩ := signed_eq apt
    rw [same]
    rfl
  unfold Platform.start
  rw [screen_line apt]
  dsimp only
  rw [begins.calls, id, show x.platform.callFor s.now x.signed x.context = x.call j by rw [begins.now]; rfl]
  show (if x.took j = 0 then _ else (x.invoked j s, Progress.waiting (x.work j) (s.now + x.took j))) = _
  rw [begins.now]
  rfl

theorem invoked_calls (begins : x.Begins j s) : (x.invoked j s).env.calls = x.before (j + 1) := by
  have calls : (x.invoked j s).env.calls = s.env.calls ++ [x.call j] := List.map_append
  rw [calls, begins.calls, before_succ]

theorem finish_replied (apt : x.Apt) (live : x.Live s) {body : String} (result : (x.answer j).result = .ok body) :
    ∃ s' line, x.platform.finish s (x.work j) = (s', .processed) ∧ Beside s s' ∧ x.Speaks line body ∧
      ∀ topic, s'.bus.topic topic =
        if topic = x.replies.topic then (s.bus.topic x.replies.topic).accept line else s.bus.topic topic := by
  obtain ⟨token, made, clean, accepted⟩ := apt.back.sign (⟨x.id, body, ""⟩ : Reply)
  have speaks : x.Speaks (Reply.encode ⟨x.id, body, token⟩) body :=
    ⟨⟨x.id, body, token⟩, Reply.decode_encode clean, rfl, rfl, accepted⟩
  obtain ⟨bus, published, topics⟩ := Bus.exists_publish? live.replies (Reply.encode ⟨x.id, body, token⟩)
  refine ⟨(s.withEnv (s.env.noteSigned (⟨x.id, body, token⟩ : Reply))).withBus bus, _, ?_, ⟨rfl, rfl, rfl⟩, speaks,
    topics⟩
  have published : (s.withEnv (s.env.noteSigned (⟨x.id, body, token⟩ : Reply))).bus.publish? x.platform.repliesTopic
      (Reply.encode ⟨x.id, body, token⟩) = some bus := apt.replies ▸ published
  unfold Platform.finish Platform.answer work
  dsimp only
  rw [result]
  dsimp only
  rw [made]
  dsimp only [Signable.withSignature]
  rw [published]

theorem finish_failed (fails : x.Fails j) (s : Scene Traffic) :
    ∃ reason, x.platform.finish s (x.work j) = (s, .retryable reason) := by
  obtain ⟨error, result, transient⟩ := fails
  refine ⟨(ProcessError.call error).message, ?_⟩
  unfold Platform.finish Platform.answer work
  dsimp only
  rw [result]
  exact congrArg (Prod.mk s) (if_pos transient)

/-! ### What becomes of an attempt -/

theorem Closes.left (closes : x.Closes last body?) (before : j < last) : j < x.requests.policy.attempts - 1 := by
  have inside := closes.inside
  unfold attempts at inside
  omega

def attempt (x : Solo) (s : Scene Traffic) (i : Nat) (d : Delivery CallWork) :
    Scene Traffic × ConsumerStats × Turn CallWork :=
  Delivery.settle x.platform.handler x.requests (x.platform.start s x.line).1 ⟨0, i, 0, 0⟩ d (x.platform.start s x.line).2

/-- All that an attempt leads to is a turn of the request. -/
def Attempts (x : Solo) (last : Nat) (body? : Option String) (i : Nat) : Prop :=
  ∀ s d, x.Begins i s → Carries d x.line (x.backoff i none) → x.Turns last body? s (x.attempt s i d)

theorem deadLetter_turns (live : x.Live s) (arrived : s.now = x.ends last) (result : body? = none) :
    x.Turns last body? s (Delivery.deadLetter x.requests s ⟨0, last, 0, 0⟩ x.line) := by
  obtain ⟨bus, published, topics⟩ := Bus.exists_publish? live.deadLetters x.line
  unfold Delivery.deadLetter
  rw [published]
  exact .deadLettered ⟨rfl, rfl, rfl⟩ arrived result topics

theorem retry_turns (closes : x.Closes last body?) (inside : j ≤ last) (failed : j = last → body? = none)
    (ended : x.Ends j s) (carries : Carries d x.line (x.backoff j none))
    (again : j < last → x.Attempts last body? (j + 1)) :
    x.Turns last body? s (Delivery.retry x.platform.handler x.requests s ⟨0, j, 0, 0⟩ d) := by
  have now := ended.now
  rcases Nat.lt_or_ge j last with before | after
  · have left := closes.left before
    by_cases delayed : 0 < x.requests.policy.backoff
    · have early : s.now < s.now + x.requests.policy.backoff := by omega
      have polled : d.backoff.poll s.now = (.pending (s.now + x.requests.policy.backoff),
          x.backoff j (some (s.now + x.requests.policy.backoff))) := by
        rw [carries.backoff]
        exact Backoff.poll_early left early
      rw [Delivery.retry_pending ended.live.running polled, carries.message]
      have delivery : (⟨x.line, x.backoff j (some (s.now + x.requests.policy.backoff)),
          .backingOff (s.now + x.requests.policy.backoff)⟩ : Delivery CallWork) = x.backingOff j := by
        rw [now, ← begins_succ]
        rfl
      exact .going (.refl s) rfl ended.calls (delivery ▸ .backingOff before (by rw [begins_succ]; omega))
    · -- a delay of nothing is over at once: the next attempt belongs to the same turn
      have due : s.now + x.requests.policy.backoff ≤ s.now := by omega
      have polled : d.backoff.poll s.now = (.delay x.requests.policy.backoff, x.backoff (j + 1) none) := by
        rw [carries.backoff]
        exact Backoff.poll_due left due
      rw [Delivery.retry_delay ended.live.running polled, carries.message]
      refine again before s _ ⟨?_, ended.calls, ended.live⟩ ⟨rfl, rfl⟩
      rw [now, begins_succ]
      omega
  · obtain rfl : j = last := by omega
    have none := failed rfl
    have total := (closes.exhausted none).2
    have spent : x.requests.policy.attempts - 1 ≤ j := by
      unfold attempts at total
      omega
    have polled : d.backoff.poll s.now = (.finished, x.backoff j .none) := by
      rw [carries.backoff]
      exact Backoff.poll_finished spent
    rw [Delivery.retry_finished ended.live.running polled, carries.message]
    exact deadLetter_turns ended.live now none

theorem finish_turns (apt : x.Apt) (closes : x.Closes last body?) (inside : j ≤ last) (ended : x.Ends j s)
    (carries : Carries d x.line (x.backoff j none)) (again : j < last → x.Attempts last body? (j + 1)) :
    x.Turns last body? s (Delivery.settle x.platform.handler x.requests (x.platform.finish s (x.work j)).1
      ⟨0, j, 0, 0⟩ d (.done (x.platform.finish s (x.work j)).2)) := by
  have retries (fails : x.Fails j) (failed : j = last → body? = none) :
      x.Turns last body? s (Delivery.settle x.platform.handler x.requests (x.platform.finish s (x.work j)).1
        ⟨0, j, 0, 0⟩ d (.done (x.platform.finish s (x.work j)).2)) := by
    obtain ⟨reason, finished⟩ := finish_failed fails s
    rw [finished]
    unfold Delivery.settle
    exact retry_turns closes inside failed ended carries again
  rcases Nat.lt_or_ge j last with before | after
  · exact retries (closes.fails j before) fun same => absurd same (by omega)
  · obtain rfl : j = last := by omega
    cases result : body? with
    | none => exact result ▸ retries (closes.exhausted result).1 fun _ => result
    | some body =>
      obtain ⟨s', line, finished, beside, speaks, topics⟩ := finish_replied apt ended.live (closes.replied body result)
      rw [finished]
      unfold Delivery.settle
      exact .replied beside ended.now rfl speaks topics

theorem attempts_of_next (apt : x.Apt) (closes : x.Closes last body?) (inside : j ≤ last)
    (again : j < last → x.Attempts last body? (j + 1)) : x.Attempts last body? j := by
  intro s d begins carries
  have beside : Beside s (x.invoked j s) := ⟨rfl, rfl, rfl⟩
  have calls := invoked_calls begins
  have ends : x.ends j = x.begins j + x.took j := rfl
  unfold attempt
  rw [start_begins apt begins]
  by_cases instant : x.took j = 0
  · -- the answer is there at once and ends the attempt in the same turn
    rw [if_pos instant]
    have ended : x.Ends j (x.invoked j s) := by
      refine ⟨?_, calls, begins.live.running, begins.live.replies, begins.live.deadLetters⟩
      have now : (x.invoked j s).now = x.begins j := begins.now
      omega
    exact (finish_turns apt closes inside ended carries again).beside beside rfl
  · rw [if_neg instant]
    unfold Delivery.settle
    have delivery : ({ d with stage := .handling (x.work j) (x.ends j) } : Delivery CallWork) = x.handling j := by
      rw [handling, ← carries.message, ← carries.backoff]
    dsimp only
    rw [delivery]
    refine .going beside rfl calls (.handling inside ?_)
    have now := begins.now
    omega

theorem attempt_turns (apt : x.Apt) (closes : x.Closes last body?) (inside : j ≤ last) : x.Attempts last body? j := by
  -- on the attempts that are left
  induction left : last - j generalizing j with
  | zero => exact attempts_of_next apt closes inside fun before => absurd before (by omega)
  | succ left ih => exact attempts_of_next apt closes inside fun before => ih before (by omega)

theorem go_fresh_turns (apt : x.Apt) (closes : x.Closes last body?) (begins : x.Begins 0 s) :
    x.Turns last body? s (Delivery.go x.platform.handler x.requests s ⟨0, 0, 0, 0⟩ (.fresh x.requests x.line)) := by
  rw [Delivery.go_start rfl]
  exact attempt_turns apt closes (Nat.zero_le last) s _ begins ⟨rfl, rfl⟩

theorem go_turns (apt : x.Apt) (closes : x.Closes last body?) {now : Nat} (flies : x.Flies last now j d)
    (due : d.wakeAt? = some s.now) (calls : s.env.calls = x.before (j + 1)) (live : x.Live s) :
    x.Turns last body? s (Delivery.go x.platform.handler x.requests s ⟨0, j, 0, 0⟩ d) := by
  have again : j < last → x.Attempts last body? (j + 1) := fun before => attempt_turns apt closes before
  cases flies with
  | handling inside early =>
    have arrived : s.now = x.ends j := (Option.some.inj due).symm
    exact finish_turns apt closes inside ⟨arrived, calls, live⟩ ⟨rfl, rfl⟩ again
  | backingOff inside early =>
    have arrived : s.now = x.begins (j + 1) := (Option.some.inj due).symm
    have polled : (x.backingOff j).backoff.poll s.now = (.delay x.requests.policy.backoff, x.backoff (j + 1) none) := by
      refine Backoff.poll_due (b := x.backoff j (some (x.begins (j + 1)))) (closes.left inside) ?_
      exact Nat.le_of_eq arrived.symm
    show x.Turns last body? s (Delivery.retry x.platform.handler x.requests s ⟨0, j, 0, 0⟩ (x.backingOff j))
    rw [Delivery.retry_delay live.running polled]
    exact again inside s _ ⟨arrived, calls, live⟩ ⟨rfl, rfl⟩

end Solo

end SoapRelay
