import SoapRelay.Proofs.Content
import SoapRelay.Proofs.Phase

/-!
# The deadline of a caller is absolute

The caller of a single call is told a reply at the very time it comes, or a timeout at the very time of the
deadline, whatever the attempts at the call come to and whenever the registry is swept.
-/

namespace SoapRelay

namespace Solo

variable {x : Solo} {i last now t : Nat} {body? : Option String} {desk : Desk} {stations : List Station}
  {y : Exchange}

/-! ### What the caller is told -/

/-- The calls that have ended by some time. -/
def told (x : Solo) (time : Nat) : List FinishedCall := ((x.later time).front.collect (x.later time).scene).1

/-- The counters of the registry at some time. -/
def counters (x : Solo) (time : Nat) : RegistryStats := (x.later time).scene.env.desk.registry.stats

/-- How long some attempts take with the delays between them. -/
def span (x : Solo) (k : Nat) : Nat :=
  (∑ j ∈ Finset.range k, x.took j) + (k - 1) * x.requests.policy.backoff

theorem span_succ (i : Nat) : x.span (i + 1) = x.ends i := (ends_eq_sum i).symm

theorem told_eq (apt : x.Apt) (settled : x.Settled last body? t (x.later t)) :
    x.told t = (x.later t).scene.env.desk.ended.map fun e => ⟨e.name, .forwarded e.ending.forwarded, e.at_⟩ := by
  obtain ⟨_, _, _, _, _, _, _, _, finished, inbound⟩ := called_spec apt
  unfold told Front.collect Front.present
  dsimp only
  rw [settled.front, finished, inbound]
  rfl

theorem Unanswered.shows (open_ : x.Unanswered now desk) :
    desk.ended = (if x.deadline ≤ now then [⟨x.name, .timedOut, x.deadline⟩] else []) ∧
      desk.registry.stats.completed = 0 ∧ desk.registry.stats.late = 0 := by
  rcases open_ with ⟨before, waits⟩ | ⟨after, told⟩
  · rw [if_neg (Nat.not_le_of_lt before)]
    exact ⟨waits.ended, waits.registry.completed, waits.registry.late⟩
  · rw [if_pos after]
    exact ⟨told.ended, told.registry.completed, told.registry.late⟩

theorem Answered.shows_early {body : String} (answered : x.Answered last body desk) (early : x.ends last < x.deadline) :
    desk.ended = [⟨x.name, .reply body, x.ends last⟩] ∧ desk.registry.stats.completed = 1 := by
  rcases answered with ⟨_, told⟩ | ⟨late, _⟩
  · exact ⟨told.ended, told.registry.completed⟩
  · exact absurd early (Nat.lt_asymm late)

theorem Answered.shows_late {body : String} (answered : x.Answered last body desk) (late : x.deadline < x.ends last) :
    desk.ended = [⟨x.name, .timedOut, x.deadline⟩] ∧ desk.registry.stats.completed = 0 ∧
      desk.registry.stats.late = 1 := by
  rcases answered with ⟨early, _⟩ | ⟨_, told⟩
  · exact absurd early (Nat.lt_asymm late)
  · exact ⟨told.ended, told.registry.completed, told.registry.late⟩

theorem Settled.under_way (settled : x.Settled last body? now y) (early : now < x.ends last) :
    x.Unanswered now y.scene.env.desk ∧ (y.stats .requests).processed = 0 ∧
      y.scene.bus.topic x.requests.deadLetterTopic = .fresh := by
  have phase := settled.phase
  generalize pair : y.stations = stations at phase
  cases phase with
  | flying _ _ open_ topics =>
    refine ⟨open_, ?_, topics.deadLetters⟩
    unfold Exchange.stats
    rw [pair]
    rfl
  | replied _ arrived _ _ => exact absurd early (Nat.not_lt_of_le arrived)
  | deadLettered _ arrived _ _ => exact absurd early (Nat.not_lt_of_le arrived)

theorem Settled.replied {body : String} (settled : x.Settled last (some body) now y) (arrived : x.ends last ≤ now) :
    x.Answered last body y.scene.env.desk ∧ (y.stats .requests).processed = 1 := by
  have phase := settled.phase
  generalize pair : y.stations = stations at phase
  cases phase with
  | flying flies _ _ _ => exact absurd arrived (Nat.not_le_of_lt flies.before_end)
  | replied result _ answered _ =>
    obtain rfl := Option.some.inj result
    refine ⟨answered, ?_⟩
    unfold Exchange.stats
    rw [pair]
    rfl
  | deadLettered none _ _ _ => cases none

theorem Settled.deadLettered (settled : x.Settled last none now y) (arrived : x.ends last ≤ now) :
    x.Unanswered now y.scene.env.desk ∧
      y.scene.bus.topic x.requests.deadLetterTopic = Topic.fresh.accept x.line := by
  have phase := settled.phase
  generalize y.stations = stations at phase
  cases phase with
  | flying flies _ _ _ => exact absurd arrived (Nat.not_le_of_lt flies.before_end)
  | replied some _ _ _ => cases some
  | deadLettered _ _ open_ topics => exact ⟨open_, topics.deadLetters⟩

theorem told_unanswered (apt : x.Apt) (settled : x.Settled last body? t (x.later t))
    (open_ : x.Unanswered t (x.later t).scene.env.desk) :
    x.told t = if x.deadline ≤ t then [⟨x.name, .forwarded (.error .timedOut), x.deadline⟩] else [] := by
  rw [told_eq apt settled, open_.shows.1]
  by_cases due : x.deadline ≤ t
  · rw [if_pos due, if_pos due]
    rfl
  · rw [if_neg due, if_neg due]
    rfl

theorem told_in_time {body : String} (apt : x.Apt) (closes : x.Closes last (some body))
    (early : x.ends last < x.deadline) (time : Nat) :
    x.told time = (if x.ends last ≤ time then [⟨x.name, .forwarded (.ok body), x.ends last⟩] else []) ∧
      (x.counters time).completed = if x.ends last ≤ time then 1 else 0 := by
  have settled := settled_later apt closes (fun _ => Nat.ne_of_lt early) time
  by_cases arrived : x.ends last ≤ time
  · obtain ⟨ended, completed⟩ := (settled.replied arrived).1.shows_early early
    rw [if_pos arrived, if_pos arrived, told_eq apt settled, ended]
    exact ⟨rfl, completed⟩
  · obtain ⟨open_, _, _⟩ := settled.under_way (Nat.lt_of_not_le arrived)
    have before : ¬x.deadline ≤ time := by omega
    rw [if_neg arrived, if_neg arrived, told_unanswered apt settled open_, if_neg before]
    exact ⟨rfl, open_.shows.2.1⟩

theorem told_too_late {body : String} (apt : x.Apt) (closes : x.Closes last (some body))
    (late : x.deadline < x.ends last) (time : Nat) :
    x.told time = (if x.deadline ≤ time then [⟨x.name, .forwarded (.error .timedOut), x.deadline⟩] else []) ∧
      ((x.later time).stats .requests).processed = (if x.ends last ≤ time then 1 else 0) ∧
      (x.counters time).late = (if x.ends last ≤ time then 1 else 0) ∧ (x.counters time).completed = 0 := by
  have settled := settled_later apt closes (fun _ => Nat.ne_of_gt late) time
  by_cases arrived : x.ends last ≤ time
  · obtain ⟨answered, processed⟩ := settled.replied arrived
    obtain ⟨ended, completed, dropped⟩ := answered.shows_late late
    have due : x.deadline ≤ time := by omega
    rw [if_pos arrived, if_pos arrived, if_pos due, told_eq apt settled, ended]
    exact ⟨rfl, processed, dropped, completed⟩
  · obtain ⟨open_, processed, _⟩ := settled.under_way (Nat.lt_of_not_le arrived)
    obtain ⟨_, completed, dropped⟩ := open_.shows
    rw [if_neg arrived, if_neg arrived]
    exact ⟨told_unanswered apt settled open_, processed, dropped, completed⟩

theorem told_in_vain (apt : x.Apt) (closes : x.Closes last none) (time : Nat) :
    x.told time = (if x.deadline ≤ time then [⟨x.name, .forwarded (.error .timedOut), x.deadline⟩] else []) ∧
      (x.later time).scene.bus.topic x.requests.deadLetterTopic =
        if x.ends last ≤ time then ⟨[x.line], .free, 1, 0⟩ else .fresh := by
  have settled := settled_later apt closes (fun some => absurd rfl some) time
  by_cases arrived : x.ends last ≤ time
  · obtain ⟨open_, lettered⟩ := settled.deadLettered arrived
    rw [if_pos arrived]
    exact ⟨told_unanswered apt settled open_, lettered⟩
  · obtain ⟨open_, _, fresh⟩ := settled.under_way (Nat.lt_of_not_le arrived)
    rw [if_neg arrived]
    exact ⟨told_unanswered apt settled open_, fresh⟩

/-- The deadline of a caller is absolute. A reply is told when it comes if that is before the deadline.
Otherwise the caller is told of the timeout at the deadline, and what comes of the attempts is the same
as ever: a late reply is dropped, and a request that was tried in vain ends as a dead letter. -/
theorem deadline_is_absolute (apt : x.Apt) :
    (∀ i body, i < x.attempts → (∀ j < i, x.Fails j) → (x.answer i).result = .ok body →
      (x.span (i + 1) < x.deadline → ∀ time,
        x.told time = (if x.span (i + 1) ≤ time then [⟨x.name, .forwarded (.ok body), x.span (i + 1)⟩] else []) ∧
        (x.counters time).completed = if x.span (i + 1) ≤ time then 1 else 0) ∧
      (x.deadline < x.span (i + 1) → ∀ time,
        x.told time = (if x.deadline ≤ time then [⟨x.name, .forwarded (.error .timedOut), x.deadline⟩] else []) ∧
        ((x.later time).stats .requests).processed = (if x.span (i + 1) ≤ time then 1 else 0) ∧
        (x.counters time).late = (if x.span (i + 1) ≤ time then 1 else 0) ∧ (x.counters time).completed = 0)) ∧
    ((∀ j < x.attempts, x.Fails j) → ∀ time,
      x.told time = (if x.deadline ≤ time then [⟨x.name, .forwarded (.error .timedOut), x.deadline⟩] else []) ∧
      (x.called.scene.bus.topic x.requests.topic).waiting = [x.line] ∧
      (x.later time).scene.bus.topic x.requests.deadLetterTopic =
        if x.span x.attempts ≤ time then ⟨[x.line], .free, 1, 0⟩ else .fresh) := by
  refine ⟨?_, ?_⟩
  · intro i body inside fails result
    have closes : x.Closes i (some body) := by
      refine ⟨inside, fails, ?_, fun none => absurd none (Option.some_ne_none body)⟩
      intro other same
      obtain rfl := Option.some.inj same
      exact result
    rw [span_succ]
    exact ⟨told_in_time apt closes, told_too_late apt closes⟩
  · intro fails time
    have one : 1 ≤ x.attempts := Nat.le_max_left 1 _
    obtain ⟨last, all⟩ := Nat.exists_eq_add_of_le' one
    have closes : x.Closes last none := by
      refine ⟨by omega, fun j before => fails j (by omega), nofun, fun _ => ⟨fails last (by omega), all.symm⟩⟩
    obtain ⟨told, lettered⟩ := told_in_vain apt closes time
    obtain ⟨bus, env, scene, topics, _⟩ := called_spec apt
    rw [all, span_succ, scene]
    exact ⟨told, congrArg Topic.waiting topics.requests, lettered⟩

namespace Loopback

open Envelope.Transplant (signer)

/-- The first calls run out of time at once; those after them take seven milliseconds. -/
def transport (failures : Nat) : Transport := fun earlier call =>
  if earlier.length < failures then ⟨0, .error (.timeout (.ofMillis call.timeout))⟩
  else ⟨7, .ok "<response/>"⟩

def solo (failures backoff deadline : Nat) : Solo where
  client := ⟨signer, "requests", ⟨deadline, []⟩⟩
  platform := ⟨signer, .ofDefault ⟨[], none, none, .standard⟩, "https://platform.test", "replies", 30000,
    transport failures⟩
  requests := ⟨"requests", ".DLT", 16, ⟨2, backoff⟩⟩
  replies := ⟨"replies", ".DLT", 16, ⟨2, backoff⟩⟩
  hash := Registry.mix
  reaper? := none
  name := "a"
  request := ⟨"/Ping", "<ping/>", none⟩
  context := ⟨[], none, none, .standard⟩

theorem signer_reaches : signer.Reaches signer := by
  intro content
  refine ⟨Hex.text (Utf8.bytes content), rfl, ?_⟩
  rw [Signer.accepts_text]
  exact decide_eq_true rfl

variable {failures backoff deadline : Nat}

theorem solo_apt (timely : deadline ≤ Clock.latest) : (solo failures backoff deadline).Apt := by
  refine ⟨?_, rfl, rfl, signer_reaches, signer_reaches, rfl, timely⟩
  have topics : ["requests", "replies", "requests.DLT", "replies.DLT"].Nodup := by decide
  exact topics

theorem answer_early (early : i < failures) :
    (solo failures backoff deadline).answer i = ⟨0, .error (.timeout (.ofMillis 30000))⟩ := by
  have played : ((solo failures backoff deadline).before i).length < failures := by rwa [length_before]
  exact if_pos played

theorem answer_late (late : failures ≤ i) : (solo failures backoff deadline).answer i = ⟨7, .ok "<response/>"⟩ := by
  have played : ¬((solo failures backoff deadline).before i).length < failures := by
    rw [length_before]
    exact Nat.not_lt_of_le late
  exact if_neg played

theorem solo_fails (early : i < failures) : (solo failures backoff deadline).Fails i := by
  refine ⟨.timeout (.ofMillis 30000), ?_, rfl⟩
  rw [answer_early early]

theorem span_one_failure : (solo 1 backoff deadline).span 2 = 7 + backoff := by
  have first : (solo 1 backoff deadline).took 0 = 0 := congrArg CallAnswer.after (answer_early Nat.one_pos)
  have second : (solo 1 backoff deadline).took 1 = 7 := congrArg CallAnswer.after (answer_late (Nat.le_refl 1))
  have ends : (solo 1 backoff deadline).ends 1 = 0 + (solo 1 backoff deadline).took 0 + backoff +
      (solo 1 backoff deadline).took 1 := rfl
  rw [span_succ, ends, first, second]
  omega

theorem span_two_failures : (solo 2 backoff deadline).span 2 = backoff := by
  have first : (solo 2 backoff deadline).took 0 = 0 := congrArg CallAnswer.after (answer_early Nat.two_pos)
  have second : (solo 2 backoff deadline).took 1 = 0 := congrArg CallAnswer.after (answer_early Nat.one_lt_two)
  have ends : (solo 2 backoff deadline).ends 1 = 0 + (solo 2 backoff deadline).took 0 + backoff +
      (solo 2 backoff deadline).took 1 := rfl
  rw [span_succ, ends, first, second]
  omega

end Loopback

open Loopback in
/-- A reply in time, a late one and a request that is tried in vain. -/
theorem deadline_is_absolute_of_loopback :
    (solo 1 500 5000).told 507 = [⟨"a", .forwarded (.ok "<response/>"), 507⟩] ∧
      ((solo 1 500 5000).counters 507).completed = 1 ∧
      (solo 1 3000 1000).told 5000 = [⟨"a", .forwarded (.error .timedOut), 1000⟩] ∧
      (((solo 1 3000 1000).later 5000).stats .requests).processed = 1 ∧
      ((solo 1 3000 1000).counters 5000).late = 1 ∧ ((solo 1 3000 1000).counters 5000).completed = 0 ∧
      (solo 2 100 1000).told 1000 = [⟨"a", .forwarded (.error .timedOut), 1000⟩] ∧
      ((solo 2 100 1000).later 1000).scene.bus.topic "requests.DLT" = ⟨[(solo 2 100 1000).line], .free, 1, 0⟩ := by
  have fails {backoff deadline : Nat} : ∀ j < 1, (solo 1 backoff deadline).Fails j := fun _ early => solo_fails early
  have replies {backoff deadline : Nat} : ((solo 1 backoff deadline).answer 1).result = .ok "<response/>" := by
    rw [answer_late (Nat.le_refl 1)]
  obtain ⟨told, completed⟩ := ((deadline_is_absolute (x := solo 1 500 5000) (solo_apt (by decide))).1 1 _ (by decide)
    fails replies).1 (by rw [span_one_failure]; decide) 507
  obtain ⟨timedOut, processed, late, uncompleted⟩ := ((deadline_is_absolute (x := solo 1 3000 1000)
    (solo_apt (by decide))).1 1 _ (by decide) fails replies).2 (by rw [span_one_failure]; decide) 5000
  obtain ⟨vain, _, lettered⟩ := (deadline_is_absolute (x := solo 2 100 1000) (solo_apt (by decide))).2
    (fun j early => solo_fails early) 1000
  rw [span_one_failure] at told completed processed late
  rw [show (solo 2 100 1000).attempts = 2 from rfl, span_two_failures] at lettered
  exact ⟨told, completed, timedOut, processed, late, uncompleted, vain, lettered⟩

end Solo

end SoapRelay
