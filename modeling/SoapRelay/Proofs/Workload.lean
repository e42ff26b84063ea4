import Mathlib.Data.List.Permutation
import SoapRelay.Consumer.Script
import SoapRelay.Proofs.Attempts
import SoapRelay.Proofs.Bus

/-!
# A worker loses and repeats nothing

A worker subscribes to its topic, takes messages and lets its deliveries go on, while anything may happen
around it. What is known of a run is kept in one ledger: which messages came to the topic, which of them were
taken, begun and ended, and how. One moment of a delivery is known from a plan, the worker as a whole by
induction on the run.
-/

namespace SoapRelay

open scoped List

variable {σ κ : Type} {h : Handler σ κ} {c : Consumer} {message topic : String} {s s' : Scene σ}

/-! ### What a handler does to the bus -/

/-- What comes of handling a message any number of times. -/
inductive Handler.Handled (h : Handler σ κ) (message : String) (s : Scene σ) : Scene σ → Prop where
  | yet : Handled h message s s
  | start {s' : Scene σ} (so : Handled h message s s') : Handled h message s (h.start s' message).1
  | finish {s' : Scene σ} (work : κ) (so : Handled h message s s') : Handled h message s (h.finish s' work).1

/-- To a topic, a handler at most adds messages. -/
structure Handler.Appends (h : Handler σ κ) (topic : String) : Prop where
  start : ∀ (s : Scene σ) message, ∃ messages, s.bus.Gains (h.start s message).1.bus topic messages
  finish : ∀ (s : Scene σ) work, ∃ messages, s.bus.Gains (h.finish s work).1.bus topic messages

/-- To a topic, a handler does nothing. -/
structure Handler.Ignores (h : Handler σ κ) (topic : String) : Prop where
  start : ∀ (s : Scene σ) message, (h.start s message).1.bus.topic topic = s.bus.topic topic
  finish : ∀ (s : Scene σ) work, (h.finish s work).1.bus.topic topic = s.bus.topic topic

theorem Handler.Handled.gains (appends : h.Appends topic) (handled : h.Handled message s s') :
    ∃ messages, s.bus.Gains s'.bus topic messages := by
  induction handled with
  | yet => exact ⟨[], .refl s.bus topic⟩
  | start _ ih =>
    obtain ⟨messages, before⟩ := ih
    obtain ⟨more, gains⟩ := appends.start _ message
    exact ⟨messages ++ more, before.trans gains⟩
  | finish work _ ih =>
    obtain ⟨messages, before⟩ := ih
    obtain ⟨more, gains⟩ := appends.finish _ work
    exact ⟨messages ++ more, before.trans gains⟩

theorem Handler.Handled.topic_eq (ignores : h.Ignores topic) (handled : h.Handled message s s') :
    s'.bus.topic topic = s.bus.topic topic := by
  induction handled with
  | yet => rfl
  | start _ ih => exact (ignores.start _ message).trans ih
  | finish work _ ih => exact (ignores.finish _ work).trans ih

/-! ### One moment -/

/-- What a moment leaves behind: what the handler came to and, if the message is a dead letter, the message
itself on the topic for them. -/
structure Delivery.Leaves (h : Handler σ κ) (c : Consumer) (message : String) (before : Scene σ) (turn : Turn κ)
    (after : Scene σ) : Prop where
  passedOn : turn = .ended .deadLettered → ∃ left, h.Handled message before left ∧
    left.bus.publish? c.deadLetterTopic message = some after.bus ∧ after = left.withBus after.bus
  otherwise : turn ≠ .ended .deadLettered → h.Handled message before after
  abandoned : turn = .ended .abandoned → after.stopping = true

namespace Delivery

theorem Leaves.gains {before after : Scene σ} {turn : Turn κ} (leaves : Leaves h c message before turn after)
    (appends : h.Appends topic) (other : topic ≠ c.deadLetterTopic) :
    ∃ messages, before.bus.Gains after.bus topic messages := by
  by_cases passedOn : turn = .ended .deadLettered
  · obtain ⟨left, handled, accepted, _⟩ := leaves.passedOn passedOn
    obtain ⟨messages, gains⟩ := handled.gains appends
    have last := Bus.gains_publish? accepted topic
    rw [if_neg other] at last
    exact ⟨_, gains.trans last⟩
  · exact (leaves.otherwise passedOn).gains appends

/-- The plan of a moment that begins at some scene. -/
def moment (h : Handler σ κ) (c : Consumer) (message : String) (before : Scene σ) : Plan σ κ where
  ready _ s := h.Handled message before s
  working _ s _ := h.Handled message before s
  failed _ s := h.Handled message before s
  lost s := h.Handled message before s
  ended how s := Leaves h c message before (.ended how) s

theorem moment_obeyed (h : Handler σ κ) (c : Consumer) (message : String) (before : Scene σ) (limit : Nat) :
    (moment h c message before).Obeyed h c message limit := by
  have after : ∀ i s (p : Progress κ), h.Handled message before s → (moment h c message before).After i s p := by
    intro i s p handled
    cases p with
    | waiting work until_ => exact handled
    | done outcome =>
      cases outcome with
      | processed => exact ⟨nofun, fun _ => handled, nofun⟩
      | retryable reason => exact handled
      | fatal reason => exact handled
  constructor
  case start => exact fun i s handled => after i _ _ handled.start
  case finish => exact fun i s work handled => after i _ _ (handled.finish work)
  case again => exact fun _ _ handled _ _ => handled
  case exhausted => exact fun _ _ handled _ => handled
  case abandoned => exact fun _ _ handled stopping => ⟨nofun, fun _ => handled, fun _ => stopping⟩
  case passedOn => exact fun s bus handled accepted => ⟨fun _ => ⟨s, handled, accepted, rfl⟩, nofun, nofun⟩
  case refused => exact fun _ handled _ => ⟨nofun, fun _ => handled, nofun⟩

/-- A delivery that goes on: the message stays the same and has been begun, and the counters say how it ended. -/
structure Spends (h : Handler σ κ) (c : Consumer) (s : Scene σ) (n : ConsumerStats) (d : Delivery κ)
    (result : Scene σ × ConsumerStats × Turn κ) : Prop where
  leaves : Leaves h c d.message s result.2.2 result.1
  counts : ∃ times, result.2.1 = result.2.2.tally (n.retry times)
  going : ∀ d', result.2.2 = .going d' → d'.stage ≠ .fresh ∧ d'.message = d.message

theorem go_spends (h : Handler σ κ) (c : Consumer) (s : Scene σ) (n : ConsumerStats) (d : Delivery κ) :
    Spends h c s n d (d.go h c s n) := by
  have meets : (moment h c d.message s).Meets d.message d.backoff.limit s d := by
    refine ⟨rfl, rfl, ?_⟩
    cases d.stage with
    | fresh => exact .yet
    | handling work until_ => exact .yet
    | backingOff until_ => exact .yet
  obtain ⟨counts, going, ended⟩ := (moment_obeyed h c d.message s d.backoff.limit).go (n := n) meets
  refine ⟨?_, counts, fun d' turn => ⟨(going d' turn).1, (going d' turn).2.message⟩⟩
  cases turn : (d.go h c s n).2.2 with
  | ended how => exact ended how turn
  | going d' =>
    obtain ⟨waits, _, _, stage⟩ := going d' turn
    refine ⟨nofun, fun _ => ?_, nofun⟩
    cases state : d'.stage with
    | fresh => exact absurd state waits
    | handling work until_ =>
      rw [state] at stage
      exact stage
    | backingOff until_ =>
      rw [state] at stage
      exact stage

end Delivery

/-- The message of a delivery that is yet to begin. -/
def Delivery.unbegun (d : Delivery κ) : List String :=
  match d.stage with
  | .fresh => [d.message]
  | _ => []

namespace Worker

/-- A moment of a run. -/
inductive Event (σ κ : Type) where
  /-- The worker subscribes, and these messages wait already. -/
  | subscribed (waiting : List String)
  /-- Something else happens: time passes, or others act. -/
  | meanwhile (before after : Scene σ)
  | took (new : List (Delivery κ))
  | went (d : Delivery κ) (before after : Scene σ) (turn : Turn κ)

namespace Event

/-- The messages that came to a topic. -/
def accepted (topic : String) : Event σ κ → List String
  | .subscribed waiting => waiting
  | .meanwhile before after => before.bus.added after.bus topic
  | .took _ => []
  | .went _ before after _ => before.bus.added after.bus topic

def taken : Event σ κ → List String
  | .took new => new.map (·.message)
  | _ => []

/-- The message that is given to the handler for the first time. -/
def begun : Event σ κ → List String
  | .went d _ _ _ => d.unbegun
  | _ => []

def ended : Event σ κ → List String
  | .went d _ _ (.ended _) => [d.message]
  | _ => []

def endedAs (how : Disposition) : Event σ κ → List String
  | .went d _ _ (.ended how') => if how' = how then [d.message] else []
  | _ => []

/-- What came to a topic while a delivery went on. -/
def posted (topic : String) : Event σ κ → List String
  | .went _ before after _ => before.bus.added after.bus topic
  | _ => []

end Event

variable (h c) in
/-- Runs of a worker that subscribes to its topic, takes messages and lets its deliveries go on, in any order but
that a message does not begin before one that was taken earlier. Anything may happen in between, as long as
nobody else takes messages from the topic. -/
inductive Runs : List (Event σ κ) → Scene σ → Worker κ → Prop where
  | start {s : Scene σ} {bus : Bus} (subscribed : s.bus.subscribe? c.topic = some bus) :
      Runs [.subscribed (s.bus.topic c.topic).waiting] (s.withBus bus) (.create c)
  | meanwhile {log : List (Event σ κ)} {s s' : Scene σ} {w : Worker κ} {messages : List String} (run : Runs log s w)
      (gains : s.bus.Gains s'.bus c.topic messages) : Runs (log ++ [.meanwhile s s']) s' w
  | take {log : List (Event σ κ)} {s s' : Scene σ} {w w' : Worker κ} (run : Runs log s w)
      (took : w.take? s = some (s', w')) : Runs (log ++ [.took (w'.inFlight.drop w.inFlight.length)]) s' w'
  | go {log : List (Event σ κ)} {s s' : Scene σ} {w w' : Worker κ} {k : Nat} {d : Delivery κ} {ended : Bool}
      (run : Runs log s w) (found : w.inFlight[k]? = some d)
      (inTurn : d.stage = .fresh → ∀ d' ∈ w.inFlight.take k, d'.stage ≠ .fresh)
      (went : w.goAt? h s k = some (s', w', ended)) :
      Runs (log ++ [.went d s s' (d.go h w.consumer s w.stats).2.2]) s' w'

def accepted (topic : String) (log : List (Event σ κ)) : List String :=
  log.flatMap (Event.accepted topic)

def given (log : List (Event σ κ)) : List String :=
  log.flatMap Event.taken

/-- How many messages ended in some way, by the counters. -/
def count (w : Worker κ) : Disposition → Nat
  | .processed => w.stats.processed
  | .deadLettered => w.stats.deadLettered
  | .deadLetterFailed => w.stats.deadLetterFailed
  | .abandoned => w.abandoned

/-- What is known of a run. -/
structure Ledger (c : Consumer) (log : List (Event σ κ)) (s : Scene σ) (w : Worker κ) : Prop where
  consumer : w.consumer = c
  few : w.inFlight.length ≤ c.limit
  held : w.subscribed = true → (s.bus.topic c.topic).subscription = .held ∧
    accepted c.topic log = given log ++ (s.bus.topic c.topic).waiting
  inOrder : given log <+: accepted c.topic log
  begun : given log = log.flatMap Event.begun ++ w.inFlight.flatMap (·.unbegun)
  each : (given log).Perm (w.inFlight.map (·.message) ++ log.flatMap Event.ended)
  counts : ∀ how, w.count how = (log.flatMap (Event.endedAs how)).length
  taken : w.taken = (given log).length

variable {log : List (Event σ κ)} {w w' : Worker κ} {e : Event σ κ} {d : Delivery κ}

/-- What one moment does to what is known of a run. -/
structure Flows (c : Consumer) (s : Scene σ) (w : Worker κ) (e : Event σ κ) (s' : Scene σ) (w' : Worker κ) : Prop where
  consumer : w'.consumer = w.consumer
  few : w'.inFlight.length ≤ w.inFlight.length ∨ w'.inFlight.length ≤ c.limit
  held : w'.subscribed = true → w.subscribed = true ∧
    (s'.bus.topic c.topic).subscription = (s.bus.topic c.topic).subscription ∧
    (s.bus.topic c.topic).waiting ++ e.accepted c.topic = e.taken ++ (s'.bus.topic c.topic).waiting
  taken : w'.subscribed = true ∨ e.taken = []
  begun : w.inFlight.flatMap (·.unbegun) ++ e.taken = e.begun ++ w'.inFlight.flatMap (·.unbegun)
  each : (w.inFlight.map (·.message) ++ e.taken).Perm (w'.inFlight.map (·.message) ++ e.ended)
  counts : ∀ how, w'.count how = w.count how + (e.endedAs how).length
  total : w'.taken = w.taken + e.taken.length

theorem accepted_concat (log : List (Event σ κ)) (e : Event σ κ) :
    accepted topic (log ++ [e]) = accepted topic log ++ e.accepted topic := by
  simp only [accepted, List.flatMap_append, List.flatMap_singleton]

theorem given_concat (log : List (Event σ κ)) (e : Event σ κ) : given (log ++ [e]) = given log ++ e.taken := by
  simp only [given, List.flatMap_append, List.flatMap_singleton]

theorem Ledger.next (ledger : Ledger c log s w) (flows : Flows c s w e s' w') : Ledger c (log ++ [e]) s' w' := by
  have whole : w'.subscribed = true → (s'.bus.topic c.topic).subscription = .held ∧
      accepted c.topic (log ++ [e]) = given (log ++ [e]) ++ (s'.bus.topic c.topic).waiting := by
    intro subscribed
    obtain ⟨before, same, queue⟩ := flows.held subscribed
    obtain ⟨held, whole⟩ := ledger.held before
    refine ⟨same.trans held, ?_⟩
    rw [accepted_concat, given_concat, whole, List.append_assoc, queue, List.append_assoc]
  constructor
  case consumer => exact flows.consumer.trans ledger.consumer
  case few => exact flows.few.elim (fun fewer => Nat.le_trans fewer ledger.few) id
  case held => exact whole
  case inOrder =>
    rcases flows.taken with subscribed | none
    · rw [(whole subscribed).2]
      exact List.prefix_append ..
    · rw [given_concat, none, List.append_nil, accepted_concat]
      exact ledger.inOrder.trans (List.prefix_append ..)
  case begun =>
    rw [given_concat, ledger.begun, List.append_assoc, flows.begun, List.flatMap_append, List.flatMap_singleton,
      List.append_assoc]
  case each =>
    rw [given_concat, List.flatMap_append, List.flatMap_singleton]
    calc given log ++ e.taken
      _ ~ w.inFlight.map (·.message) ++ log.flatMap Event.ended ++ e.taken := ledger.each.append_right _
      _ ~ w.inFlight.map (·.message) ++ e.taken ++ log.flatMap Event.ended := by
        rw [List.append_assoc, List.append_assoc]
        exact List.perm_append_comm.append_left _
      _ ~ w'.inFlight.map (·.message) ++ e.ended ++ log.flatMap Event.ended := flows.each.append_right _
      _ ~ w'.inFlight.map (·.message) ++ (log.flatMap Event.ended ++ e.ended) := by
        rw [List.append_assoc]
        exact List.perm_append_comm.append_left _
  case counts =>
    intro how
    rw [flows.counts, ledger.counts, List.flatMap_append, List.flatMap_singleton, List.length_append]
  case taken => rw [given_concat, flows.total, ledger.taken, List.length_append]

/-! ### What each moment does -/

theorem start_ledger {bus : Bus} (subscribed : s.bus.subscribe? c.topic = some bus) :
    Ledger c ([.subscribed (s.bus.topic c.topic).waiting] : List (Event σ κ)) (s.withBus bus) (.create c) := by
  have topic := (Bus.subscribe?_cases subscribed).2 c.topic
  rw [if_pos rfl] at topic
  refine ⟨rfl, Nat.zero_le _, fun _ => ?_, List.nil_prefix, rfl, .nil, ?_, rfl⟩
  · show (bus.topic c.topic).subscription = .held ∧ _ = [] ++ (bus.topic c.topic).waiting
    rw [topic]
    exact ⟨rfl, List.flatMap_singleton ..⟩
  · intro how
    cases how with
    | processed | deadLettered | deadLetterFailed | abandoned => rfl

theorem meanwhile_flows (w : Worker κ) {messages : List String} (gains : s.bus.Gains s'.bus c.topic messages) :
    Flows c s w (.meanwhile s s') s' w := by
  refine ⟨rfl, Or.inl (Nat.le_refl _), fun subscribed => ⟨subscribed, ?_⟩, Or.inr rfl, ?_, ?_, fun _ => rfl, rfl⟩
  · rw [Event.accepted, gains.added_eq, gains]
    exact ⟨rfl, rfl⟩
  · exact List.append_nil _
  · exact .refl _

theorem take_flows (own : w.consumer = c) (took : w.take? s = some (s', w')) :
    Flows c s w (.took (w'.inFlight.drop w.inFlight.length)) s' w' := by
  subst own
  cases takes_of_take? took with
  | @message message bus subscribed running room received =>
    obtain ⟨rest, held, waits, topics⟩ := Bus.receive?_cases received
    have topic := topics w.consumer.topic
    rw [if_pos rfl] at topic
    have next : (w.inFlight ++ [Delivery.fresh w.consumer message]).drop w.inFlight.length =
        [.fresh w.consumer message] := List.drop_left
    dsimp only
    rw [next]
    refine ⟨rfl, Or.inr ?_, fun _ => ⟨subscribed, ?_⟩, Or.inl subscribed, ?_, ?_, ?_, rfl⟩
    · rw [List.length_append, List.length_singleton]
      exact room
    · show (bus.topic w.consumer.topic).subscription = _ ∧ _ = [message] ++ (bus.topic w.consumer.topic).waiting
      rw [topic, waits]
      exact ⟨rfl, List.append_nil _⟩
    · rw [List.flatMap_append, List.flatMap_singleton]
      rfl
    · rw [List.map_append]
      exact .of_eq (List.append_nil _).symm
    · intro how
      cases how with
      | processed | deadLettered | deadLetterFailed | abandoned => rfl
  | nothing subscribed stopping =>
    dsimp only
    rw [List.drop_length]
    refine ⟨rfl, Or.inl (Nat.le_refl _), nofun, Or.inr rfl, ?_, .refl _, ?_, rfl⟩
    · exact List.append_nil _
    · intro how
      cases how with
      | processed | deadLettered | deadLetterFailed | abandoned => rfl

/-! ### What a delivery that goes on does -/

/-- What is left in flight. -/
def left : Turn κ → List (Delivery κ)
  | .going d => [d]
  | .ended _ => []

theorem put_inFlight (w : Worker κ) (others : List (Delivery κ)) (stats : ConsumerStats) (turn : Turn κ) :
    (w.put others stats turn).inFlight = others ++ left turn := by
  unfold put
  split
  · rfl
  · exact (List.append_nil _).symm
  · exact (List.append_nil _).symm

theorem count_put (w : Worker κ) (others : List (Delivery κ)) (times : Nat) (turn : Turn κ) (how : Disposition) :
    (w.put others (turn.tally (w.stats.retry times)) turn).count how =
      w.count how + (Event.endedAs how (.went d s s' turn)).length := by
  cases turn with
  | going d => cases how <;> rfl
  | ended how' => cases how' <;> cases how <;> rfl

theorem unbegun_of_ne {d : Delivery κ} (begun : d.stage ≠ .fresh) : d.unbegun = [] := by
  unfold Delivery.unbegun
  split
  · contradiction
  · rfl

theorem split_at {k : Nat} (found : w.inFlight[k]? = some d) :
    w.inFlight = w.inFlight.take k ++ d :: w.inFlight.drop (k + 1) := by
  obtain ⟨inside, rfl⟩ := List.getElem?_eq_some_iff.mp found
  rw [List.getElem_cons_drop, List.take_append_drop]

/-- A delivery is only begun if none before it is yet to begin, so deliveries begin in their order. -/
theorem begun_inTurn {k : Nat} (found : w.inFlight[k]? = some d)
    (inTurn : d.stage = .fresh → ∀ d' ∈ w.inFlight.take k, d'.stage ≠ .fresh) :
    w.inFlight.flatMap (·.unbegun) = d.unbegun ++ (w.inFlight.eraseIdx k).flatMap (·.unbegun) := by
  have whole := congrArg (List.flatMap (·.unbegun)) (split_at found)
  rw [whole, List.eraseIdx_eq_take_drop_succ, List.flatMap_append, List.flatMap_append, List.flatMap_cons]
  by_cases fresh : d.stage = .fresh
  · have none : (w.inFlight.take k).flatMap (·.unbegun) = [] :=
      List.flatMap_eq_nil_iff.mpr fun d' member => unbegun_of_ne (inTurn fresh d' member)
    rw [none, List.nil_append, List.nil_append]
  · rw [unbegun_of_ne fresh, List.nil_append, List.nil_append]

theorem go_flows {k : Nat} {ended : Bool} (own : w.consumer = c) (appends : h.Appends c.topic)
    (other : c.topic ≠ c.deadLetterTopic) (found : w.inFlight[k]? = some d)
    (inTurn : d.stage = .fresh → ∀ d' ∈ w.inFlight.take k, d'.stage ≠ .fresh)
    (went : w.goAt? h s k = some (s', w', ended)) :
    Flows c s w (.went d s s' (d.go h w.consumer s w.stats).2.2) s' w' := by
  subst own
  obtain ⟨d', same, rfl, rfl⟩ := goAt?_eq_some went
  obtain rfl : d' = d := Option.some.inj (same.symm.trans found)
  obtain ⟨leaves, ⟨times, counts⟩, going⟩ := Delivery.go_spends h w.consumer s w.stats d'
  obtain ⟨messages, gains⟩ := leaves.gains appends other
  rw [counts]
  generalize d'.go h w.consumer s w.stats = result at *
  obtain ⟨consumer, subscribed, taken⟩ :=
    w.put_fixed (w.inFlight.eraseIdx k) (result.2.2.tally (w.stats.retry times)) result.2.2
  have inFlight := w.put_inFlight (w.inFlight.eraseIdx k) (result.2.2.tally (w.stats.retry times)) result.2.2
  have here : k < w.inFlight.length := (List.getElem?_eq_some_iff.mp found).1
  -- what is left of the delivery is its message, in flight or ended
  have message : (left result.2.2).map (·.message) ++ (Event.went d' s result.1 result.2.2).ended = [d'.message] := by
    cases turn : result.2.2 with
    | going next =>
      rw [← (going next turn).2]
      rfl
    | ended how => rfl
  have begun : (left result.2.2).flatMap (·.unbegun) = [] := by
    cases turn : result.2.2 with
    | going next =>
      rw [left, List.flatMap_singleton]
      exact unbegun_of_ne (going next turn).1
    | ended how => rfl
  constructor
  case consumer => exact consumer
  case few =>
    have most : (left result.2.2).length ≤ 1 := by
      cases result.2.2 with
      | going next => exact Nat.le_refl 1
      | ended how => exact Nat.zero_le 1
    rw [inFlight, List.length_append, List.length_eraseIdx_of_lt here]
    exact Or.inl (by omega)
  case held =>
    intro still
    rw [Event.accepted, gains.added_eq, gains]
    exact ⟨subscribed ▸ still, rfl, rfl⟩
  case taken => exact Or.inr rfl
  case begun =>
    rw [inFlight, List.flatMap_append, begun, List.append_nil, begun_inTurn found inTurn]
    exact List.append_nil _
  case each =>
    rw [inFlight, List.map_append, List.append_assoc, message]
    show (w.inFlight.map Delivery.message ++ []).Perm _
    have whole := congrArg (List.map Delivery.message) (split_at found)
    rw [List.append_nil, whole, List.eraseIdx_eq_take_drop_succ, List.map_append, List.map_append, List.append_assoc,
      List.map_cons]
    exact (List.perm_append_singleton _ _).symm.append_left _
  case counts => exact fun how => count_put ..
  case total => exact taken

/-! ### Runs -/

theorem topic_ne_deadLetterTopic (suffixed : c.suffix ≠ "") : c.topic ≠ c.deadLetterTopic := by
  intro same
  exact suffixed (String.append_eq_left_iff.mp same.symm)

theorem run_ledger (suffixed : c.suffix ≠ "") (appends : h.Appends c.topic) (run : Runs h c log s w) :
    Ledger c log s w := by
  induction run with
  | start subscribed => exact start_ledger subscribed
  | meanwhile _ gains ih => exact ih.next (meanwhile_flows _ gains)
  | take _ took ih => exact ih.next (take_flows ih.consumer took)
  | go _ found inTurn went ih =>
    exact ih.next (go_flows ih.consumer appends (topic_ne_deadLetterTopic suffixed) found inTurn went)

/-- Every moment of a delivery leaves the bus as the handler did, but for a dead letter. -/
theorem run_leaves (suffixed : c.suffix ≠ "") (appends : h.Appends c.topic) (run : Runs h c log s w)
    {before after : Scene σ} {turn : Turn κ} (member : .went d before after turn ∈ log) :
    Delivery.Leaves h c d.message before turn after := by
  induction run with
  | start subscribed => cases List.mem_singleton.mp member
  | meanwhile _ gains ih =>
    rcases List.mem_append.mp member with old | new
    · exact ih old
    · cases List.mem_singleton.mp new
  | take _ took ih =>
    rcases List.mem_append.mp member with old | new
    · exact ih old
    · cases List.mem_singleton.mp new
  | go run found inTurn went ih =>
    rcases List.mem_append.mp member with old | new
    · exact ih old
    · cases List.mem_singleton.mp new
      obtain ⟨_, same, rfl, _⟩ := goAt?_eq_some went
      obtain rfl := Option.some.inj (same.symm.trans found)
      rw [(run_ledger suffixed appends run).consumer]
      exact (Delivery.go_spends h c _ _ _).leaves

theorem length_ended (log : List (Event σ κ)) : (log.flatMap Event.ended).length =
    (log.flatMap (Event.endedAs .processed)).length + (log.flatMap (Event.endedAs .deadLettered)).length +
      (log.flatMap (Event.endedAs .deadLetterFailed)).length + (log.flatMap (Event.endedAs .abandoned)).length := by
  induction log with
  | nil => rfl
  | cons e log ih =>
    have one : e.ended.length = (e.endedAs .processed).length + (e.endedAs .deadLettered).length +
        (e.endedAs .deadLetterFailed).length + (e.endedAs .abandoned).length := by
      cases e with
      | went d before after turn =>
        cases turn with
        | going next => rfl
        | ended how => cases how <;> rfl
      | subscribed | meanwhile | took => rfl
    simp only [List.flatMap_cons, List.length_append, ih, one]
    omega

/-- If the handler does nothing there, what comes to the topic of the dead letters is the message that has ended as
one. -/
theorem posted_eq {before after : Scene σ} {turn : Turn κ} (ignores : h.Ignores c.deadLetterTopic)
    (leaves : Delivery.Leaves h c d.message before turn after) :
    (Event.went d before after turn).posted c.deadLetterTopic =
      (Event.went d before after turn).endedAs .deadLettered := by
  by_cases passedOn : turn = .ended .deadLettered
  · obtain ⟨left, handled, accepted, _⟩ := leaves.passedOn passedOn
    have gains := Bus.gains_publish? accepted c.deadLetterTopic
    rw [if_pos rfl, Bus.Gains, handled.topic_eq ignores] at gains
    subst passedOn
    exact Bus.Gains.added_eq gains
  · have same := (leaves.otherwise passedOn).topic_eq ignores
    have none : (Event.went d before after turn).endedAs .deadLettered = [] := by
      cases turn with
      | going next => rfl
      | ended how => exact if_neg fun same => passedOn (congrArg Turn.ended same)
    rw [none]
    exact (Bus.gains_of_topic_eq same).added_eq

/-- What a run of a worker has come to, at any moment of it. -/
structure Conserves (h : Handler σ κ) (c : Consumer) (log : List (Event σ κ)) (s : Scene σ) (w : Worker κ) : Prop where
  few : w.inFlight.length ≤ max 1 c.concurrency
  /-- Messages are taken in the order in which they were published, and none is left out. -/
  inOrder : given log <+: accepted c.topic log
  waiting : w.subscribed = true → accepted c.topic log = given log ++ (s.bus.topic c.topic).waiting
  /-- They are begun in that order too, each one once. -/
  begun : given log = log.flatMap Event.begun ++ w.inFlight.flatMap (·.unbegun)
  each : (given log).Perm (w.inFlight.map (·.message) ++ log.flatMap Event.ended)
  taken : w.taken = (given log).length
  balanced : w.taken = w.inFlight.length + w.stats.processed + w.stats.deadLettered + w.stats.deadLetterFailed +
    w.abandoned
  counts : ∀ how, w.count how = (log.flatMap (Event.endedAs how)).length
  leaves : ∀ d before after turn, .went d before after turn ∈ log →
    Delivery.Leaves h c d.message before turn after
  deadLetters : h.Ignores c.deadLetterTopic →
    log.flatMap (Event.posted c.deadLetterTopic) = log.flatMap (Event.endedAs .deadLettered)
  /-- Once consumers are to stop, no message is taken. -/
  stopping : ∀ (s s' : Scene σ) w', s.stopping = true → w.take? s = some (s', w') →
    w'.inFlight = w.inFlight ∧ w'.taken = w.taken
  /-- Once the worker has stopped, nothing is in flight, and nothing is done any more. -/
  stopped : w.stopped = true → w.inFlight = [] ∧ ∀ s : Scene σ, w.take? s = none ∧ ∀ k, w.goAt? h s k = none

/-- Whatever the messages, whatever becomes of them at each attempt, however many may be in flight and whenever
consumers are to stop, a worker loses and repeats nothing. -/
theorem run_conserves (suffixed : c.suffix ≠ "") (appends : h.Appends c.topic) (run : Runs h c log s w) :
    Conserves h c log s w := by
  have ledger := run_ledger suffixed appends run
  constructor
  case few => exact ledger.few
  case inOrder => exact ledger.inOrder
  case waiting => exact fun subscribed => (ledger.held subscribed).2
  case begun => exact ledger.begun
  case each => exact ledger.each
  case taken => exact ledger.taken
  case balanced =>
    have processed := ledger.counts .processed
    have deadLettered := ledger.counts .deadLettered
    have deadLetterFailed := ledger.counts .deadLetterFailed
    have abandoned := ledger.counts .abandoned
    have all := ledger.each.length_eq
    rw [List.length_append, List.length_map, length_ended] at all
    rw [ledger.taken, all]
    simp only [count] at processed deadLettered deadLetterFailed abandoned
    omega
  case counts => exact ledger.counts
  case leaves => exact fun d before after turn member => run_leaves suffixed appends run member
  case deadLetters =>
    intro ignores
    refine List.flatMap_congr fun e member => ?_
    cases e with
    | went d before after turn => exact posted_eq ignores (run_leaves suffixed appends run member)
    | subscribed | meanwhile | took => rfl
  case stopping =>
    intro s s' w' stopping took
    cases takes_of_take? took with
    | message _ running => exact absurd (stopping.symm.trans running) nofun
    | nothing => exact ⟨rfl, rfl⟩
  case stopped =>
    intro stopped
    obtain ⟨unsubscribed, empty⟩ := Bool.and_eq_true_iff.mp stopped
    have none : w.inFlight = [] := List.isEmpty_iff.mp empty
    refine ⟨none, fun s => ⟨?_, fun k => ?_⟩⟩
    · have off : w.subscribed = false := by simpa using unsubscribed
      rw [take?, off]
      rfl
    · rw [goAt?, none]
      rfl

/-! ### Runs of the model -/

/-- A worker that settles makes a run: a delivery that could have begun earlier is not passed over. -/
theorem settle_runs (run : Runs h c log s w) (fuel : Nat) :
    ∃ log, Runs h c log (w.settle h fuel s).1 (w.settle h fuel s).2 := by
  refine settle_keeps (P := fun s w => ∃ log, Runs h c log s w) ?_ ?_ fuel ⟨log, run⟩
  · rintro s w s' w' ⟨log, run⟩ took
    exact ⟨_, run.take took⟩
  · rintro s w k s' w' ended ⟨log, run⟩ first went
    obtain ⟨inside, _, earlier⟩ := List.findIdx?_eq_some_iff_getElem.mp first
    refine ⟨_, run.go (List.getElem?_eq_getElem inside) (fun _ d' member fresh => ?_) went⟩
    obtain ⟨j, before, rfl⟩ := List.mem_take_iff_getElem.mp member
    refine earlier j (by omega) ?_
    unfold Delivery.canGo
    rw [fresh]

end Worker

/-! ### Workers under a script -/

namespace Script

theorem start_bus (s : Scene Script) (text : String) : (start s text).1.bus = s.bus := by
  unfold start
  dsimp only
  split
  · rfl
  · rfl

theorem handler_appends (topic : String) : handler.Appends topic := by
  refine ⟨fun s message => ⟨[], ?_⟩, fun s work => ⟨[], .refl ..⟩⟩
  exact Bus.gains_of_topic_eq (congrArg (Bus.topic · topic) (start_bus s message))

theorem handler_ignores (topic : String) : handler.Ignores topic :=
  ⟨fun s message => congrArg (Bus.topic · topic) (start_bus s message), fun _ _ => rfl⟩

end Script

namespace ConsumerTrial

open Worker

variable {t : ConsumerTrial} {f : Feed}

/-- Some run of the worker comes to where a trial stands. -/
def Stands (t : ConsumerTrial) (f : Feed) : Prop :=
  ∃ log, Runs t.handler t.consumer log f.scene f.worker

theorem publishDue_runs {log : List (Worker.Event Script Script.Work)} {s : Scene Script} {w : Worker Script.Work}
    (run : Runs t.handler t.consumer log s w) (coming : List (Nat × String)) :
    ∃ log, Runs t.handler t.consumer log (publishDue t.consumer.topic s coming).1 w := by
  induction coming generalizing log s with
  | nil => exact ⟨log, run⟩
  | cons next rest ih =>
    obtain ⟨time, m⟩ := next
    unfold publishDue
    split
    · cases accepted : s.bus.publish? t.consumer.topic m with
      | none => exact ih run
      | some bus => exact ih (run.meanwhile (Bus.gains_publish? accepted t.consumer.topic))
    · exact ⟨log, run⟩

theorem settle_stands (stands : Stands t f) : Stands t (f.settle t) := by
  obtain ⟨log, run⟩ := stands
  obtain ⟨log, published⟩ := publishDue_runs run f.coming
  exact settle_runs published rounds

theorem wake_stands (stands : Stands t f) (now : Nat) : Stands t (f.wake t now) := by
  obtain ⟨log, run⟩ := stands
  exact settle_stands ⟨_, run.meanwhile (.refl ..)⟩

theorem runUntil_stands (stands : Stands t f) (steps now : Nat) :
    Stands t (Clock.runUntil (·.worker.stopped) (Feed.nextWake t) (Feed.wake t) steps now f).2 := by
  induction steps generalizing now f with
  | zero => exact stands
  | succ steps ih =>
    unfold Clock.runUntil
    split
    · exact stands
    · split
      · exact stands
      · exact ih (wake_stands stands _) _

/-- A trial is a run of its worker. -/
theorem runWorker_stands (suffixed : t.consumer.suffix ≠ "") : Stands t t.runWorker.2 := by
  have free : (t.opening.bus.topic t.consumer.topic).subscription = .free := by
    unfold opening
    dsimp only
    split
    · rw [Bus.unsubscribe, Bus.topic_put, if_neg (topic_ne_deadLetterTopic suffixed)]
      rfl
    · rfl
  obtain ⟨bus, subscribed, _⟩ := Bus.exists_subscribe? free
  unfold runWorker
  dsimp only
  rw [subscribed]
  exact runUntil_stands (settle_stands ⟨_, .start subscribed⟩) _ _

/-- Two messages at a time: `a` fails for now and then for good, `c` waits for another attempt when consumers are to
stop, and `d` has to wait until there is room. -/
def crowded : ConsumerTrial where
  consumer := ⟨"t", ".DLT", 2, ⟨2, 10⟩⟩
  handler := Script.handler
  entries := ⟨[("a", [⟨.retryable "busy", 3⟩, ⟨.fatal "bad", 0⟩]), ("c", [⟨.retryable "busy", 15⟩])]⟩
  closed := false
  messages := [(0, "a"), (0, "b"), (0, "c"), (7, "d")]
  stopAt? := some 20

end ConsumerTrial

open ConsumerTrial in
theorem Worker.run_conserves_of_crowded :
    let worker := crowded.runWorker.2.worker
    ∃ log, Runs crowded.handler crowded.consumer log crowded.runWorker.2.scene worker ∧
      Conserves crowded.handler crowded.consumer log crowded.runWorker.2.scene worker ∧
      log.flatMap (Event.posted "t.DLT") = log.flatMap (Event.endedAs .deadLettered) ∧
      worker.taken = 4 ∧ worker.stats = ⟨2, 1, 1, 0⟩ ∧ worker.abandoned = 1 ∧ worker.stopped = true ∧
      (crowded.runWorker.2.scene.bus.topic "t.DLT").waiting = ["a"] := by
  have suffixed : crowded.consumer.suffix ≠ "" := by decide
  obtain ⟨log, run⟩ := runWorker_stands suffixed
  have conserves := run_conserves suffixed (Script.handler_appends "t") run
  refine ⟨log, run, conserves, conserves.deadLetters (Script.handler_ignores _), ?_⟩
  refine ⟨by cbv, by cbv, by cbv, by cbv, by cbv⟩

end SoapRelay
