import SoapRelay.Proofs.Bus
import SoapRelay.Proofs.Noting
import SoapRelay.Proofs.Relay

/-!
# Refused messages

Both consumers fail closed. A message that its handler refuses is handled once, changes nothing beside
the bus and is passed on to the dead-letter topic as it came, whatever the retry policy.
-/

namespace SoapRelay

inductive Platform.Refuses (p : Platform) (message : String) : Prop where
  | malformed {error : EnvelopeError} (unread : Request.decode message = .error error)
  | forged {r : Request} (read : Request.decode message = .ok r) (unverified : p.signer.verify r = false)
  | unknownOrganization {r : Request} {error : Tls.Error} (read : Request.decode message = .ok r)
      (unknown : p.resolver.contextFor r.organization = .error error)

inductive Replies.Refuses (signer : Signer) (message : String) : Prop where
  | malformed {error : EnvelopeError} (unread : Reply.decode message = .error error)
  | forged {r : Reply} (read : Reply.decode message = .ok r) (unverified : signer.verify r = false)

def Role.Refuses (client : Client) (platform : Platform) : Role → String → Prop
  | .requests, message => platform.Refuses message
  | .replies, message => Replies.Refuses client.signer message
  | .deadLetters, _ => False

/-- The scene beside the bus, which holds the callers, the registry with its counters, the outbound
calls and what was signed, is the one before. On the bus and in the counters of the consumer there is
one more message for the dead-letter topic, or one that it did not take. -/
structure FailsClosed {σ : Type} (c : Consumer) (message : String) (s : Scene σ) (n : ConsumerStats)
    (result : Scene σ × ConsumerStats × Disposition) : Prop where
  env : result.1.env = s.env
  elsewhere : ∀ topic, topic ≠ c.deadLetterTopic → result.1.bus.topic topic = s.bus.topic topic
  passedOn : (s.bus.topic c.deadLetterTopic).subscription ≠ .gone →
    result.1.bus.topic c.deadLetterTopic = (s.bus.topic c.deadLetterTopic).accept message ∧
      result.2 = ({ n with deadLettered := n.deadLettered + 1 }, .deadLettered)
  dropped : (s.bus.topic c.deadLetterTopic).subscription = .gone →
    result.1.bus.topic c.deadLetterTopic = s.bus.topic c.deadLetterTopic ∧
      result.2 = ({ n with deadLetterFailed := n.deadLetterFailed + 1 }, .deadLetterFailed)

section

/-! ### What the handlers say -/

variable {client : Client} {platform : Platform} {role : Role} {message reason : String}

theorem Platform.screen_refused (refused : platform.Refuses message) :
    ∃ error, platform.screen message = .error error ∧ error.isRetryable = false := by
  unfold Platform.screen
  cases refused with
  | malformed unread =>
    rw [unread]
    exact ⟨_, rfl, rfl⟩
  | forged read unverified =>
    rw [read]
    dsimp only
    rw [unverified]
    exact ⟨_, rfl, rfl⟩
  | unknownOrganization read unknown =>
    rw [read]
    dsimp only
    rw [unknown]
    -- an unknown organization is only looked for once the signature has been checked
    split
    · exact ⟨_, rfl, rfl⟩
    · exact ⟨_, rfl, rfl⟩

theorem Platform.start_refused (refused : platform.Refuses message) (s : Scene Traffic) :
    ∃ reason, platform.start s message = (s, .done (.fatal reason)) := by
  obtain ⟨error, screened, final⟩ := Platform.screen_refused refused
  refine ⟨error.message, ?_⟩
  unfold Platform.start
  rw [screened]
  dsimp only
  rw [ProcessError.outcome, final]
  rfl

theorem Replies.start_refused {signer : Signer} (refused : Replies.Refuses signer message) (s : Scene Traffic) :
    ∃ reason, (Replies.handler signer).start s message = (s, .done (.fatal reason)) := by
  unfold Replies.handler Replies.handle
  dsimp only
  cases refused with
  | malformed unread =>
    rw [unread]
    exact ⟨_, rfl⟩
  | forged read unverified =>
    rw [read]
    dsimp only
    rw [unverified]
    exact ⟨_, rfl⟩

theorem Role.start_refused (refused : role.Refuses client platform message) (s : Scene Traffic) :
    ∃ reason, (role.handler client platform).start s message = (s, .done (.fatal reason)) := by
  cases role with
  | deadLetters => exact False.elim refused
  | requests => exact Platform.start_refused refused s
  | replies => exact Replies.start_refused refused s

/-! ### What consumers make of it -/

section Fatal

variable {σ κ : Type} {h : Handler σ κ} {c : Consumer} {s s' : Scene σ} {n : ConsumerStats}

theorem Delivery.deadLetter_failsClosed (κ : Type) (c : Consumer) (s : Scene σ) (n : ConsumerStats)
    (message : String) : ∃ s' n' how,
      (deadLetter c s n message : Scene σ × ConsumerStats × Turn κ) = (s', n', .ended how) ∧ how ≠ .abandoned ∧
        FailsClosed c message s n (s', n', how) := by
  unfold deadLetter
  by_cases gone : (s.bus.topic c.deadLetterTopic).subscription = .gone
  · rw [Bus.publish?_gone gone]
    exact ⟨_, _, _, rfl, nofun, rfl, fun _ _ => rfl, fun kept => absurd gone kept, fun _ => ⟨rfl, rfl⟩⟩
  · obtain ⟨bus, accepted, topics⟩ := Bus.exists_publish? gone message
    rw [accepted]
    refine ⟨_, _, _, rfl, nofun, rfl, ?_, ?_, fun no => absurd no gone⟩
    · intro topic other
      exact (topics topic).trans (if_neg other)
    · intro _
      exact ⟨(topics _).trans (if_pos rfl), rfl⟩

theorem Delivery.go_fatal (started : h.start s message = (s', .done (.fatal reason))) :
    go h c s n (.fresh c message) = deadLetter c s' n message := by
  show Delivery.settle h c (h.start s message).1 n (.fresh c message) (h.start s message).2 = _
  rw [started]
  unfold Delivery.settle
  rfl

theorem Consumer.process_fatal {stopAt? : Option Nat}
    (started : h.start (s.atTime stopAt? s.now) message = (s', .done (.fatal reason))) :
    FailsClosed c message s' n (c.process h stopAt? s n message) := by
  obtain ⟨after, stats, how, passed, _, closed⟩ := Delivery.deadLetter_failsClosed κ c s' n message
  unfold Consumer.process Delivery.moments Delivery.runFor
  rw [Delivery.go_fatal started, passed]
  exact closed

theorem Worker.goAt?_fatal {w : Worker κ} {k : Nat} (found : w.inFlight[k]? = some (.fresh w.consumer message))
    (started : h.start s message = (s', .done (.fatal reason))) :
    ∃ after stats how, w.goAt? h s k = some (after, { w with inFlight := w.inFlight.eraseIdx k, stats }, true) ∧
      FailsClosed w.consumer message s' w.stats (after, stats, how) := by
  obtain ⟨after, stats, how, passed, ended, closed⟩ :=
    Delivery.deadLetter_failsClosed κ w.consumer s' w.stats message
  refine ⟨after, stats, how, ?_, closed⟩
  unfold Worker.goAt?
  rw [found]
  dsimp only
  rw [Delivery.go_fatal started, passed]
  cases how with
  | abandoned => exact absurd rfl ended
  | processed | deadLettered | deadLetterFailed => rfl

end Fatal

/-- Consumers of requests and of replies fail closed: a message that is malformed, not properly signed or
from an unknown organization is handled exactly once. No call is made for it, no caller, pending call or
counter of the registry changes, and nothing is published but the message itself, to the dead-letter
topic. That is so for the delivery of a single message and for a worker that has others in flight. -/
theorem refused_message_fails_closed (refused : role.Refuses client platform message) (s : Scene Traffic) :
    (∀ c stopAt? n,
      FailsClosed c message s n (c.process (role.handler client platform) stopAt? s n message) ∧
        ∀ log, (c.process (role.handler client platform).noting stopAt? (s.noting log) n message).1.env.2 =
          log ++ [message]) ∧
      ∀ (w : Worker CallWork) k, w.inFlight[k]? = some (.fresh w.consumer message) →
        (∃ s' stats how, w.goAt? (role.handler client platform) s k =
            some (s', { w with inFlight := w.inFlight.eraseIdx k, stats }, true) ∧
          FailsClosed w.consumer message s w.stats (s', stats, how)) ∧
        ∀ log, (w.goAt? (role.handler client platform).noting (s.noting log) k).map (·.1.env.2) =
          some (log ++ [message]) := by
  refine ⟨?_, ?_⟩
  · intro c stopAt? n
    obtain ⟨reason, started⟩ := Role.start_refused refused (s.atTime stopAt? s.now)
    constructor
    · obtain ⟨env, elsewhere, passedOn, dropped⟩ := Consumer.process_fatal (c := c) (n := n) started
      exact ⟨env, elsewhere, passedOn, dropped⟩
    · intro log
      have noted := Handler.start_noting (s := (s.noting log).atTime stopAt? s.now) started
      have closed := Consumer.process_fatal (c := c) (n := n) noted
      rw [closed.env]
      rfl
  · intro w k found
    obtain ⟨reason, started⟩ := Role.start_refused refused s
    refine ⟨Worker.goAt?_fatal found started, ?_⟩
    intro log
    obtain ⟨s', stats, how, went, closed⟩ := Worker.goAt?_fatal found (Handler.start_noting (s := s.noting log) started)
    rw [went, Option.map_some, closed.env]
    rfl

end

namespace Relay.Loopback

def quiet : Scene Traffic := ⟨0, .empty, false, .start Registry.mix⟩

def forged : Request := { request with signature := "02" }

theorem forged_refused : Role.requests.Refuses client platform forged.encode :=
  .forged (Request.decode_encode (by decide)) (by decide +kernel)

/-- Replies go where the dead letters of requests go. -/
def overlapping : Platform := { platform with repliesTopic := "requests.DLT" }

theorem overlapping_refuses : overlapping.Refuses "x" := by
  cases read : Request.decode "x" with
  | error error => exact .malformed read
  | ok r =>
    have unread : (Request.decode "x").toOption = none := by decide +kernel
    rw [read] at unread
    cases unread

end Relay.Loopback

open Relay.Loopback

/-- A request that was signed by someone else is passed on, and no call is made for it. -/
theorem refused_message_fails_closed_of_forged :
    Role.requests.Refuses client platform forged.encode ∧
      let result := (consumer "requests").process platform.handler none quiet .zero forged.encode
      result.1.env.invocations = [] ∧ result.1.bus.topic "requests.DLT" = ⟨[forged.encode], .free, 1, 0⟩ ∧
        result.2 = (⟨0, 0, 1, 0⟩, .deadLettered) ∧
        ((consumer "requests").process platform.handler.noting none (quiet.noting []) .zero
          forged.encode).1.env.2 = [forged.encode] := by
  refine ⟨forged_refused, ?_⟩
  obtain ⟨closed, once⟩ := (refused_message_fails_closed forged_refused quiet).1 (consumer "requests") none .zero
  have kept : (quiet.bus.topic (consumer "requests").deadLetterTopic).subscription ≠ .gone := by decide
  obtain ⟨topic, rest⟩ := closed.passedOn kept
  exact ⟨congrArg Traffic.invocations closed.env, topic, rest, once []⟩

/-- Where replies go to the dead-letter topic of requests, a refused request gets among the replies. -/
theorem refused_request_among_replies :
    overlapping.Refuses "x" ∧ (consumer "requests").suffix ≠ "" ∧
      ((consumer "requests").process overlapping.handler none quiet .zero "x").1.bus.topic
        overlapping.repliesTopic = ⟨["x"], .free, 1, 0⟩ := by
  refine ⟨overlapping_refuses, by decide, ?_⟩
  obtain ⟨reason, started⟩ := Platform.start_refused overlapping_refuses (quiet.atTime none quiet.now)
  have closed : FailsClosed (consumer "requests") "x" quiet .zero
      ((consumer "requests").process overlapping.handler none quiet .zero "x") := Consumer.process_fatal started
  exact (closed.passedOn (by decide)).1

end SoapRelay
