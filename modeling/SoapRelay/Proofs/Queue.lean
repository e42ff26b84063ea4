import Mathlib.Data.List.Induction
import SoapRelay.Proofs.Bus

/-!
# Topics are queues

Whatever is done to a bus, in whatever order and on however many topics, each topic hands out the messages
that it accepted in their order, each one once. What a step does to a topic is said once; the order, the
counters and the refusals follow by induction on the run.
-/

namespace SoapRelay

variable {t t' : Topic} {topic name : String}

namespace Topic

/-- What a step means for a topic. -/
inductive Effect where
  | accepts (message : String)
  | hands (messages : List String)
  | subscribes
  | drops
  | none
  deriving DecidableEq

namespace Effect

def accepted : Effect → List String
  | .accepts message => [message]
  | _ => []

def handed : Effect → List String
  | .hands messages => messages
  | _ => []

end Effect

/-- How a topic comes out of a step. -/
inductive Follows (t : Topic) : Effect → Topic → Prop where
  | accept {message : String} (kept : t.subscription ≠ .gone) : Follows t (.accepts message) (t.accept message)
  | receive {message : String} {rest : List String} (held : t.subscription = .held)
      (waits : t.waiting = message :: rest) :
      Follows t (.hands [message]) { t with waiting := rest, taken := t.taken + 1 }
  | drain (free : t.subscription = .free) :
      Follows t (.hands t.waiting) { t with waiting := [], taken := t.taken + t.waiting.length }
  | drainNothing (unfree : t.subscription ≠ .free) : Follows t (.hands []) t
  | subscribe (free : t.subscription = .free) : Follows t .subscribes { t with subscription := .held }
  | drop (held : t.subscription = .held) : Follows t .drops { t with waiting := [], subscription := .gone }
  | rest : Follows t .none t

/-- What every step does to the queue, to the counters and to the subscription. -/
structure Flows (t : Topic) (effect : Effect) (t' : Topic) : Prop where
  published : t'.published = t.published + effect.accepted.length
  taken : t'.taken = t.taken + effect.handed.length
  queue : t'.subscription ≠ .gone →
    t.subscription ≠ .gone ∧ t.waiting ++ effect.accepted = effect.handed ++ t'.waiting
  closed : t'.subscription = .gone → effect.accepted = [] ∧ effect.handed = []
  free : t'.subscription = .free ↔ t.subscription = .free ∧ effect ≠ .subscribes
  gone : t'.subscription = .gone ↔ t.subscription = .gone ∨ effect = .drops
  first : effect = .subscribes → t.subscription = .free

theorem Follows.eq_of_none (follows : t.Follows .none t') : t' = t := by
  cases follows
  rfl

theorem Follows.flows {effect : Effect} (follows : t.Follows effect t') : t.Flows effect t' := by
  cases follows with
  | accept kept =>
    exact ⟨rfl, rfl, fun _ => ⟨kept, rfl⟩, fun gone => absurd gone kept,
      (and_iff_left nofun).symm, (or_iff_left nofun).symm, nofun⟩
  | receive held waits =>
    have kept : t.subscription ≠ .gone := by simp [held]
    exact ⟨rfl, rfl, fun _ => ⟨kept, by simp [waits, Effect.accepted, Effect.handed]⟩, fun gone => absurd gone kept,
      (and_iff_left nofun).symm, (or_iff_left nofun).symm, nofun⟩
  | drain free =>
    have kept : t.subscription ≠ .gone := by simp [free]
    exact ⟨rfl, rfl, fun _ => ⟨kept, by simp [Effect.accepted, Effect.handed]⟩, fun gone => absurd gone kept,
      (and_iff_left nofun).symm, (or_iff_left nofun).symm, nofun⟩
  | drainNothing unfree =>
    exact ⟨rfl, rfl, fun kept => ⟨kept, by simp [Effect.accepted, Effect.handed]⟩, fun _ => ⟨rfl, rfl⟩,
      (and_iff_left nofun).symm, (or_iff_left nofun).symm, nofun⟩
  | subscribe free =>
    exact ⟨rfl, rfl, fun _ => ⟨by simp [free], by simp [Effect.accepted, Effect.handed]⟩, nofun,
      by simp, by simp [free], fun _ => free⟩
  | drop held =>
    exact ⟨rfl, rfl, fun kept => absurd rfl kept, fun _ => ⟨rfl, rfl⟩, by simp [held], by simp, nofun⟩
  | rest =>
    exact ⟨rfl, rfl, fun kept => ⟨kept, by simp [Effect.accepted, Effect.handed]⟩, fun _ => ⟨rfl, rfl⟩,
      (and_iff_left nofun).symm, (or_iff_left nofun).symm, nofun⟩

end Topic

/-! ### Runs of a session -/

namespace BusSession

variable {s : BusSession} {steps : List (String × Step)}

/-- One step of a run, with the session before and after it. -/
structure Event where
  before : BusSession
  topic : String
  step : Step
  answer : Answer
  after : BusSession

def event (s : BusSession) (topic : String) (step : Step) : Event :=
  ⟨s, topic, step, (s.step topic step).1, (s.step topic step).2⟩

def after (s : BusSession) (steps : List (String × Step)) : BusSession :=
  steps.foldl (fun s next => (s.step next.1 next.2).2) s

def events (s : BusSession) : List (String × Step) → List Event
  | [] => []
  | (topic, step) :: rest => s.event topic step :: events (s.step topic step).2 rest

namespace Event

/-- Whether a step is made on a topic, or with a subscription of it. A subscription whose name is taken by
a new one is dropped, so that step is on both of their topics. -/
def On (e : Event) (topic : String) : Prop :=
  match e.step with
  | .publish _ | .drain | .look => e.topic = topic
  | .subscribe name => e.topic = topic ∨ e.before.streams.get? name = some topic
  | .receive name | .drop name => e.before.streams.get? name = some topic

/-- What a step meant for a topic, going by the answer to it. -/
def effect (e : Event) (topic : String) : Topic.Effect :=
  match e.step, e.answer with
  | .publish message, .accepted => if e.topic = topic then .accepts message else .none
  | .drain, .messages texts => if e.topic = topic then .hands texts else .none
  | .receive name, .message text => if e.before.streams.get? name = some topic then .hands [text] else .none
  | .drop name, .flag true => if e.before.streams.get? name = some topic then .drops else .none
  | .subscribe name, .flag true =>
    if e.topic = topic then .subscribes
    else if e.before.streams.get? name = some topic then .drops
    else .none
  | _, _ => .none

theorem effect_of_not_on {e : Event} (elsewhere : ¬e.On topic) : e.effect topic = .none := by
  unfold On at elsewhere
  unfold effect
  split
  · rename_i step _
    rw [step] at elsewhere
    exact if_neg elsewhere
  · rename_i step _
    rw [step] at elsewhere
    exact if_neg elsewhere
  · rename_i step _
    rw [step] at elsewhere
    exact if_neg elsewhere
  · rename_i step _
    rw [step] at elsewhere
    exact if_neg elsewhere
  · rename_i step _
    rw [step] at elsewhere
    obtain ⟨other, unheld⟩ := not_or.mp elsewhere
    rw [if_neg other, if_neg unheld]
  · rfl

end Event

/-- The messages that a topic accepted, in the order of their publication. -/
def accepted (topic : String) (events : List Event) : List String :=
  events.flatMap fun e => (e.effect topic).accepted

/-- The messages that a topic handed out, to its subscriber or when it was drained. -/
def handed (topic : String) (events : List Event) : List String :=
  events.flatMap fun e => (e.effect topic).handed

/-- Every subscription that is kept holds its topic, and no other one does. -/
structure Valid (s : BusSession) : Prop where
  held : ∀ name topic, s.streams.get? name = some topic → (s.bus.topic topic).subscription = .held
  own : ∀ a b topic, s.streams.get? a = some topic → s.streams.get? b = some topic → a = b

theorem start_valid : start.Valid := ⟨nofun, nofun⟩

/-! ### What a step does -/

theorem streams_release (s : BusSession) (name other : String) :
    (s.release name).streams.get? other = if other = name then none else s.streams.get? other := by
  unfold release
  split
  · exact Table.get?_erase ..
  · rename_i missing
    split
    · rename_i same
      rw [same, missing]
    · rfl

theorem topic_release (s : BusSession) (name other : String) : (s.release name).bus.topic other =
    if s.streams.get? name = some other then { s.bus.topic other with waiting := [], subscription := .gone }
    else s.bus.topic other := by
  unfold release
  split
  · rename_i topic found
    rw [found, Bus.unsubscribe, Bus.topic_put]
    by_cases same : other = topic
    · subst same
      rw [if_pos rfl, if_pos rfl]
    · rw [if_neg same, if_neg fun there => same (Option.some.inj there).symm]
  · rename_i missing
    rw [missing, if_neg nofun]

theorem release_valid (valid : s.Valid) (name : String) : (s.release name).Valid := by
  constructor
  · intro other topic found
    rw [streams_release] at found
    split at found
    · cases found
    · rename_i different
      rw [topic_release, if_neg]
      · exact valid.held other topic found
      · exact fun same => different (valid.own other name topic found same)
  · intro a b topic first second
    rw [streams_release] at first second
    split at first
    · cases first
    · split at second
      · cases second
      · exact valid.own a b topic first second

theorem release_follows (valid : s.Valid) (name topic : String) :
    (s.bus.topic topic).Follows (if s.streams.get? name = some topic then .drops else .none)
      ((s.release name).bus.topic topic) := by
  rw [topic_release]
  split
  · rename_i found
    exact .drop (valid.held name topic found)
  · exact .rest

/-- A session stays valid, and every topic comes out of a step as its answer says. -/
structure Goes (e : Event) : Prop where
  valid : e.after.Valid
  follows : ∀ topic, (e.before.bus.topic topic).Follows (e.effect topic) (e.after.bus.topic topic)

theorem Valid.withBus (valid : s.Valid) {bus : Bus}
    (keeps : ∀ topic, (s.bus.topic topic).subscription = .held → (bus.topic topic).subscription = .held) :
    Valid { s with bus } :=
  ⟨fun name topic found => keeps topic (valid.held name topic found), valid.own⟩

theorem goes_unchanged (valid : s.Valid) {e : Event} (before : e.before = s) (after : e.after = s)
    (quiet : ∀ topic, e.effect topic = .none) : Goes e := by
  refine ⟨after ▸ valid, ?_⟩
  intro topic
  rw [quiet, before, after]
  exact .rest

/-- A step that changes one topic, and not who subscribes to it. -/
theorem goes_withBus (valid : s.Valid) {e : Event} {bus : Bus} {source : String} {effect : Topic.Effect}
    (before : e.before = s) (after : e.after = { s with bus })
    (topics : ∀ other, bus.topic other = if other = source then t' else s.bus.topic other)
    (same : t'.subscription = (s.bus.topic source).subscription)
    (effects : ∀ other, e.effect other = if source = other then effect else .none)
    (follows : (s.bus.topic source).Follows effect t') : Goes e := by
  rw [← before] at topics same follows
  refine ⟨?_, ?_⟩
  · rw [after]
    refine valid.withBus ?_
    intro other held
    rw [topics]
    split
    · rename_i here
      rw [same, before, ← here]
      exact held
    · rw [before]
      exact held
  · intro other
    have shown : e.after.bus.topic other = bus.topic other := by rw [after]
    rw [shown, topics, effects]
    by_cases here : other = source
    · subst here
      rw [if_pos rfl, if_pos rfl]
      exact follows
    · rw [if_neg here, if_neg (Ne.symm here)]
      exact .rest

theorem step_publish_gone (gone : (s.bus.topic topic).subscription = .gone) (message : String) :
    s.step topic (.publish message) = (.closed, s) := by
  simp only [step, Bus.publish?_gone gone]

theorem exists_step_publish (kept : (s.bus.topic topic).subscription ≠ .gone) (message : String) :
    ∃ bus, s.step topic (.publish message) = (.accepted, { s with bus }) ∧ ∀ other, bus.topic other =
      if other = topic then (s.bus.topic topic).accept message else s.bus.topic other := by
  obtain ⟨bus, accepted, topics⟩ := Bus.exists_publish? kept message
  exact ⟨bus, by simp only [step, accepted], topics⟩

theorem publish_goes (valid : s.Valid) (topic message : String) : Goes (s.event topic (.publish message)) := by
  by_cases gone : (s.bus.topic topic).subscription = .gone
  · have refused := step_publish_gone gone message
    refine goes_unchanged valid rfl (congrArg Prod.snd refused) ?_
    intro other
    simp only [event, refused, Event.effect]
  · obtain ⟨bus, made, topics⟩ := exists_step_publish gone message
    refine goes_withBus valid rfl (congrArg Prod.snd made) topics rfl ?_ (.accept gone)
    intro other
    simp only [event, made, Event.effect]

theorem step_drain_free (free : (s.bus.topic topic).subscription = .free) :
    s.step topic .drain = (.messages (s.bus.topic topic).waiting, { s with
      bus := s.bus.put topic { s.bus.topic topic with
        waiting := [], taken := (s.bus.topic topic).taken + (s.bus.topic topic).waiting.length } }) := by
  simp only [step, Bus.drain, free]

theorem step_drain_unfree (unfree : (s.bus.topic topic).subscription ≠ .free) :
    s.step topic .drain = (.messages [], s) := by
  unfold step Bus.drain
  dsimp only
  split
  · rename_i free
    exact absurd free unfree
  · rfl

theorem drain_goes (valid : s.Valid) (topic : String) : Goes (s.event topic .drain) := by
  by_cases free : (s.bus.topic topic).subscription = .free
  · have made := step_drain_free free
    refine goes_withBus valid rfl (congrArg Prod.snd made) (fun other => Bus.topic_put ..) rfl ?_ (.drain free)
    intro other
    simp only [event, made, Event.effect]
  · unfold event
    rw [step_drain_unfree free]
    refine ⟨valid, ?_⟩
    intro other
    dsimp only [Event.effect]
    split
    · rename_i same
      exact .drainNothing (same ▸ free)
    · exact .rest

theorem step_receive_nothing {source : String} (topic : String) (found : s.streams.get? name = some source)
    (none : (s.bus.topic source).waiting = []) : s.step topic (.receive name) = (.nothingWaiting, s) := by
  simp only [step, found, Bus.receive?_nothing none]

theorem exists_step_receive (valid : s.Valid) {source message : String} {rest : List String} (topic : String)
    (found : s.streams.get? name = some source) (waits : (s.bus.topic source).waiting = message :: rest) :
    ∃ bus, s.step topic (.receive name) = (.message message, { s with bus }) ∧ ∀ other, bus.topic other =
      if other = source then { s.bus.topic source with waiting := rest, taken := (s.bus.topic source).taken + 1 }
      else s.bus.topic other := by
  obtain ⟨bus, received, topics⟩ := Bus.exists_receive? (valid.held name source found) waits
  exact ⟨bus, by simp only [step, found, received], topics⟩

theorem receive_goes (valid : s.Valid) (topic name : String) : Goes (s.event topic (.receive name)) := by
  cases found : s.streams.get? name with
  | none =>
    have made : s.step topic (.receive name) = (.unknown, s) := by simp only [step, found]
    refine goes_unchanged valid rfl (congrArg Prod.snd made) ?_
    intro other
    simp only [event, made, Event.effect]
  | some source =>
    cases waits : (s.bus.topic source).waiting with
    | nil =>
      have made := step_receive_nothing topic found waits
      refine goes_unchanged valid rfl (congrArg Prod.snd made) ?_
      intro other
      simp only [event, made, Event.effect]
    | cons message rest =>
      have held := valid.held name source found
      obtain ⟨bus, made, topics⟩ := exists_step_receive valid topic found waits
      refine goes_withBus valid rfl (congrArg Prod.snd made) topics rfl ?_ (.receive held waits)
      intro other
      simp only [event, made, Event.effect, found, Option.some.injEq]

theorem drop_goes (valid : s.Valid) (topic name : String) : Goes (s.event topic (.drop name)) := by
  refine ⟨release_valid valid name, ?_⟩
  intro other
  have follows := release_follows valid name other
  have effect : (s.event topic (.drop name)).effect other =
      if s.streams.get? name = some other then .drops else .none := by
    cases found : s.streams.get? name with
    | none => simp [event, step, Event.effect, Table.contains, found]
    | some source => simp [event, step, Event.effect, Table.contains, found]
  rw [effect]
  exact follows

theorem keep_valid (valid : s.Valid) (held : (s.bus.topic topic).subscription = .held)
    (unheld : ∀ other, s.streams.get? other ≠ some topic) :
    Valid { s with streams := s.streams.put name topic } := by
  constructor
  · intro other source found
    dsimp only at found ⊢
    rw [Table.get?_put] at found
    split at found
    · obtain rfl := Option.some.inj found
      exact held
    · exact valid.held other source found
  · intro a b source first second
    dsimp only at first second
    rw [Table.get?_put] at first second
    split at first
    · rename_i isName
      split at second
      · rename_i alsoName
        exact isName.trans alsoName.symm
      · obtain rfl := Option.some.inj first
        exact absurd second (unheld b)
    · split at second
      · obtain rfl := Option.some.inj second
        exact absurd first (unheld a)
      · exact valid.own a b source first second

theorem subscribe_goes (valid : s.Valid) (topic name : String) : Goes (s.event topic (.subscribe name)) := by
  by_cases free : (s.bus.topic topic).subscription = .free
  · obtain ⟨bus, subscribed, topics⟩ := Bus.exists_subscribe? free
    generalize next : ({ s with bus } : BusSession) = between
    have made : s.step topic (.subscribe name) = (.flag true,
        { between.release name with streams := (between.release name).streams.put name topic }) := by
      simp only [step, subscribed, next]
    have streams : between.streams = s.streams := by rw [← next]
    have between_topic : ∀ other, between.bus.topic other =
        if other = topic then { s.bus.topic topic with subscription := .held } else s.bus.topic other := by
      rw [← next]
      exact topics
    have middle : between.Valid := by
      rw [← next]
      refine valid.withBus ?_
      intro other held
      rw [topics]
      split
      · rfl
      · exact held
    -- nobody held the topic before, so the older subscription of the name is one of another topic
    have unheld : ∀ other, s.streams.get? other ≠ some topic := by
      intro other found
      cases free.symm.trans (valid.held other topic found)
    have here : (between.release name).bus.topic topic = { s.bus.topic topic with subscription := .held } := by
      rw [topic_release, streams, if_neg (unheld name), between_topic, if_pos rfl]
    unfold event
    rw [made]
    refine ⟨keep_valid (release_valid middle name) (by rw [here]) ?_, ?_⟩
    · intro other found
      rw [streams_release, streams] at found
      split at found
      · cases found
      · exact unheld other found
    · intro other
      dsimp only [Event.effect]
      by_cases same : topic = other
      · subst same
        rw [if_pos rfl, here]
        exact .subscribe free
      · have follows := release_follows middle name other
        rw [streams, between_topic, if_neg (Ne.symm same)] at follows
        rw [if_neg same]
        exact follows
  · have made : s.step topic (.subscribe name) = (.flag false, s) := by
      simp only [step, Bus.subscribe?_unfree free]
    refine goes_unchanged valid rfl (congrArg Prod.snd made) ?_
    intro other
    simp only [event, made, Event.effect]

theorem step_goes (valid : s.Valid) (topic : String) (step : Step) : Goes (s.event topic step) := by
  cases step with
  | publish message => exact publish_goes valid topic message
  | subscribe name => exact subscribe_goes valid topic name
  | receive name => exact receive_goes valid topic name
  | drop name => exact drop_goes valid topic name
  | drain => exact drain_goes valid topic
  | look => exact goes_unchanged valid rfl rfl fun _ => rfl

/-! ### What a run shows of a topic -/

theorem events_append (s : BusSession) (first second : List (String × Step)) :
    s.events (first ++ second) = s.events first ++ (s.after first).events second := by
  induction first generalizing s with
  | nil => rfl
  | cons next rest ih =>
    rw [List.cons_append, events, events, ih, List.cons_append]
    rfl

theorem after_append (s : BusSession) (first second : List (String × Step)) :
    s.after (first ++ second) = (s.after first).after second :=
  List.foldl_append

theorem accepted_concat (topic : String) (past : List Event) (e : Event) :
    accepted topic (past ++ [e]) = accepted topic past ++ (e.effect topic).accepted := by
  simp [accepted]

theorem handed_concat (topic : String) (past : List Event) (e : Event) :
    handed topic (past ++ [e]) = handed topic past ++ (e.effect topic).handed := by
  simp [handed]

/-- A topic after the events of a run. -/
structure Ledger (topic : String) (past : List Event) (t : Topic) : Prop where
  published : t.published = (accepted topic past).length
  taken : t.taken = (handed topic past).length
  inOrder : handed topic past <+: accepted topic past
  waiting : t.subscription ≠ .gone → accepted topic past = handed topic past ++ t.waiting
  free : t.subscription = .free ↔ ∀ e ∈ past, e.effect topic ≠ .subscribes
  gone : t.subscription = .gone ↔ ∃ e ∈ past, e.effect topic = .drops
  once : past.Pairwise fun a b => ¬(a.effect topic = .subscribes ∧ b.effect topic = .subscribes)

theorem ledger_start (topic : String) : Ledger topic [] (start.bus.topic topic) :=
  ⟨rfl, rfl, List.prefix_rfl, fun _ => rfl, iff_of_true rfl nofun, iff_of_false nofun nofun, .nil⟩

theorem Ledger.next {past : List Event} {e : Event} (ledger : Ledger topic past t)
    (flows : t.Flows (e.effect topic) t') : Ledger topic (past ++ [e]) t' := by
  have whole : t'.subscription ≠ .gone →
      accepted topic (past ++ [e]) = handed topic (past ++ [e]) ++ t'.waiting := by
    intro kept
    obtain ⟨before, queue⟩ := flows.queue kept
    rw [accepted_concat, handed_concat, ledger.waiting before, List.append_assoc, queue, List.append_assoc]
  constructor
  case published => rw [accepted_concat, List.length_append, flows.published, ledger.published]
  case taken => rw [handed_concat, List.length_append, flows.taken, ledger.taken]
  case inOrder =>
    by_cases gone : t'.subscription = .gone
    · obtain ⟨nothing, none⟩ := flows.closed gone
      rw [accepted_concat, handed_concat, nothing, none, List.append_nil, List.append_nil]
      exact ledger.inOrder
    · rw [whole gone]
      exact List.prefix_append ..
  case waiting => exact whole
  case free =>
    rw [flows.free, ledger.free]
    simp [or_imp, forall_and]
  case gone =>
    rw [flows.gone, ledger.gone]
    simp [or_and_right, exists_or]
  case once =>
    refine List.pairwise_append.mpr ⟨ledger.once, List.pairwise_singleton _ _, ?_⟩
    intro a before b last both
    obtain rfl := List.mem_singleton.mp last
    exact ledger.free.mp (flows.first both.2) a before both.1

theorem run_ledger (steps : List (String × Step)) : (start.after steps).Valid ∧
    ∀ topic, Ledger topic (start.events steps) ((start.after steps).bus.topic topic) := by
  induction steps using List.reverseRecOn with
  | nil => exact ⟨start_valid, ledger_start⟩
  | append_singleton steps next ih =>
    obtain ⟨valid, ledger⟩ := ih
    obtain ⟨topic, step⟩ := next
    have goes := step_goes valid topic step
    rw [events_append, after_append]
    exact ⟨goes.valid, fun other => (ledger other).next (goes.follows other).flows⟩

theorem exists_of_events {past later : List Event} {e : Event} (cut : s.events steps = past ++ e :: later) :
    ∃ before topic step, past = s.events before ∧ e = (s.after before).event topic step := by
  induction steps generalizing s past with
  | nil => exact absurd cut.symm (List.append_ne_nil_of_right_ne_nil _ (List.cons_ne_nil _ _))
  | cons next rest ih =>
    obtain ⟨topic, step⟩ := next
    cases past with
    | nil =>
      obtain ⟨rfl, _⟩ := List.cons.inj cut
      exact ⟨[], topic, step, rfl, rfl⟩
    | cons first past =>
      obtain ⟨rfl, tail⟩ := List.cons.inj cut
      obtain ⟨before, topic', step', rfl, rfl⟩ := ih tail
      exact ⟨(topic, step) :: before, topic', step', rfl, rfl⟩

/-! ### Steps after a run -/

theorem drain_answer (steps : List (String × Step)) (topic : String) :
    (∃ f ∈ start.events steps, f.effect topic = .subscribes) ∧
        ((start.after steps).event topic .drain).answer = .messages [] ∨
      (∀ f ∈ start.events steps, f.effect topic ≠ .subscribes) ∧
        ∃ texts, ((start.after steps).event topic .drain).answer = .messages texts ∧
          accepted topic (start.events steps) = handed topic (start.events steps) ++ texts := by
  have own := (run_ledger steps).2 topic
  by_cases free : ((start.after steps).bus.topic topic).subscription = .free
  · refine Or.inr ⟨own.free.mp free, _, congrArg Prod.fst (step_drain_free free), own.waiting ?_⟩
    simp [free]
  · refine Or.inl ⟨?_, congrArg Prod.fst (step_drain_unfree free)⟩
    by_contra none
    exact free (own.free.mpr fun f member same => none ⟨f, member, same⟩)

theorem receive_answer (steps : List (String × Step)) (other : String) {name : String}
    (found : (start.after steps).streams.get? name = some topic) :
    accepted topic (start.events steps) = handed topic (start.events steps) ∧
        ((start.after steps).event other (.receive name)).answer = .nothingWaiting ∨
      ∃ text, ((start.after steps).event other (.receive name)).answer = .message text := by
  obtain ⟨valid, ledger⟩ := run_ledger steps
  have held := valid.held name topic found
  cases waits : ((start.after steps).bus.topic topic).waiting with
  | nil =>
    have queue := (ledger topic).waiting (by simp [held])
    rw [waits, List.append_nil] at queue
    exact Or.inl ⟨queue, congrArg Prod.fst (step_receive_nothing other found waits)⟩
  | cons text rest =>
    obtain ⟨bus, made, _⟩ := exists_step_receive valid other found waits
    exact Or.inr ⟨text, congrArg Prod.fst made⟩

theorem publish_answer (steps : List (String × Step)) (topic message : String) :
    (∃ f ∈ start.events steps, f.effect topic = .drops) ∧
        ((start.after steps).event topic (.publish message)).answer = .closed ∧
          ((start.after steps).event topic (.publish message)).after = start.after steps ∨
      (∀ f ∈ start.events steps, f.effect topic ≠ .drops) ∧
        ((start.after steps).event topic (.publish message)).answer = .accepted := by
  have own := (run_ledger steps).2 topic
  by_cases gone : ((start.after steps).bus.topic topic).subscription = .gone
  · have made := step_publish_gone gone message
    exact Or.inl ⟨own.gone.mp gone, congrArg Prod.fst made, congrArg Prod.snd made⟩
  · obtain ⟨bus, made, _⟩ := exists_step_publish gone message
    refine Or.inr ⟨?_, congrArg Prod.fst made⟩
    intro f member drops
    exact gone (own.gone.mpr ⟨f, member, drops⟩)

/-- What the steps of a run show of a topic, and what the topic is after them. -/
structure IsQueue (topic : String) (events : List Event) (t : Topic) : Prop where
  inOrder : handed topic events <+: accepted topic events
  published : t.published = (accepted topic events).length
  /-- No message is handed out more often than it was accepted, so the backlog is what it should be. -/
  backlog : t.backlog + (handed topic events).length = t.published
  buffered : (∀ e ∈ events, e.effect topic ≠ .drops) →
    accepted topic events = handed topic events ++ t.waiting ∧ t.backlog = t.waiting.length
  subscribed : events.Pairwise fun a b => ¬(a.effect topic = .subscribes ∧ b.effect topic = .subscribes)
  drained : ∀ past e later, events = past ++ e :: later → e.topic = topic → e.step = .drain →
    (∃ f ∈ past, f.effect topic = .subscribes) ∧ e.answer = .messages [] ∨
      (∀ f ∈ past, f.effect topic ≠ .subscribes) ∧
        ∃ texts, e.answer = .messages texts ∧ accepted topic past = handed topic past ++ texts
  received : ∀ past e later name, events = past ++ e :: later → e.step = .receive name →
    e.before.streams.get? name = some topic →
      accepted topic past = handed topic past ∧ e.answer = .nothingWaiting ∨ ∃ text, e.answer = .message text
  refused : ∀ past e later message, events = past ++ e :: later → e.topic = topic → e.step = .publish message →
    (∃ f ∈ past, f.effect topic = .drops) ∧ e.answer = .closed ∧ e.after = e.before ∨
      (∀ f ∈ past, f.effect topic ≠ .drops) ∧ e.answer = .accepted
  elsewhere : ∀ e ∈ events, ¬e.On topic → e.after.bus.topic topic = e.before.bus.topic topic

/-- Whatever is published, subscribed to, received, drained and dropped on whatever topics, each topic is a
queue with one subscriber. -/
theorem topics_are_queues (steps : List (String × Step)) (topic : String) :
    IsQueue topic (start.events steps) ((start.after steps).bus.topic topic) := by
  obtain ⟨_, ledger⟩ := run_ledger steps
  have own := ledger topic
  constructor
  case inOrder => exact own.inOrder
  case published => exact own.published
  case backlog =>
    have few := own.inOrder.length_le
    rw [Topic.backlog, own.published, own.taken]
    omega
  case buffered =>
    intro kept
    have queue := own.waiting fun gone =>
      let ⟨e, member, drops⟩ := own.gone.mp gone
      kept e member drops
    refine ⟨queue, ?_⟩
    rw [Topic.backlog, own.published, own.taken, queue, List.length_append]
    omega
  case subscribed => exact own.once
  case drained =>
    intro past e later cut here drains
    obtain ⟨before, topic', step, rfl, rfl⟩ := exists_of_events cut
    obtain rfl : topic' = topic := here
    obtain rfl : step = .drain := drains
    exact drain_answer before topic'
  case received =>
    intro past e later name cut receives found
    obtain ⟨before, topic', step, rfl, rfl⟩ := exists_of_events cut
    obtain rfl : step = .receive name := receives
    exact receive_answer before topic' found
  case refused =>
    intro past e later message cut here publishes
    obtain ⟨before, topic', step, rfl, rfl⟩ := exists_of_events cut
    obtain rfl : topic' = topic := here
    obtain rfl : step = .publish message := publishes
    exact publish_answer before topic' message
  case elsewhere =>
    intro e member other
    obtain ⟨past, later, cut⟩ := List.append_of_mem member
    obtain ⟨before, topic', step, rfl, rfl⟩ := exists_of_events cut
    have follows := (step_goes (run_ledger before).1 topic' step).follows topic
    rw [Event.effect_of_not_on other] at follows
    exact follows.eq_of_none

end BusSession

end SoapRelay
