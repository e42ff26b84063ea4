import Mathlib.Tactic.ByContra
import SoapRelay.Bus

/-!
# What the bus does to its topics

`Bus.topic` is the view of a bus. Each operation changes the topic that it is about and leaves the
others as they are.
-/

namespace SoapRelay

def Topic.accept (t : Topic) (message : String) : Topic :=
  { t with waiting := t.waiting ++ [message], published := t.published + 1 }

def Topic.acceptAll (t : Topic) (messages : List String) : Topic :=
  { t with waiting := t.waiting ++ messages, published := t.published + messages.length }

namespace Bus

variable {b : Bus} {name message : String}

theorem publish?_gone (gone : (b.topic name).subscription = .gone) : b.publish? name message = none := by
  unfold publish?
  dsimp only
  rw [gone]

theorem exists_publish? (kept : (b.topic name).subscription ≠ .gone) (message : String) :
    ∃ after, b.publish? name message = some after ∧
      ∀ other, after.topic other = if other = name then (b.topic name).accept message else b.topic other := by
  unfold publish?
  dsimp only
  split
  · rename_i gone
    exact absurd gone kept
  · exact ⟨_, rfl, fun other => topic_put b name other _⟩

theorem exists_subscribe? (free : (b.topic name).subscription = .free) :
    ∃ after, b.subscribe? name = some after ∧
      ∀ other, after.topic other = if other = name then { b.topic name with subscription := .held } else b.topic other := by
  unfold subscribe?
  dsimp only
  rw [free]
  exact ⟨_, rfl, fun other => topic_put b name other _⟩

theorem subscribe?_unfree (unfree : (b.topic name).subscription ≠ .free) : b.subscribe? name = none := by
  unfold subscribe?
  dsimp only
  split
  · contradiction
  · rfl

theorem exists_receive? {rest : List String} (held : (b.topic name).subscription = .held)
    (waits : (b.topic name).waiting = message :: rest) :
    ∃ after, b.receive? name = some (message, after) ∧ ∀ other, after.topic other =
      if other = name then { b.topic name with waiting := rest, taken := (b.topic name).taken + 1 } else b.topic other := by
  unfold receive?
  dsimp only
  rw [held, waits]
  exact ⟨_, rfl, fun other => topic_put b name other _⟩

theorem receive?_nothing (none : (b.topic name).waiting = []) : b.receive? name = Option.none := by
  unfold receive?
  dsimp only
  split
  · rename_i waits
    cases none.symm.trans waits
  · rfl

theorem subscribe?_cases {after : Bus} (subscribed : b.subscribe? name = some after) :
    (b.topic name).subscription = .free ∧ ∀ other, after.topic other =
      if other = name then { b.topic name with subscription := .held } else b.topic other := by
  have free : (b.topic name).subscription = .free := by
    by_contra unfree
    rw [subscribe?_unfree unfree] at subscribed
    cases subscribed
  obtain ⟨_, made, topics⟩ := exists_subscribe? free
  obtain rfl := Option.some.inj (made.symm.trans subscribed)
  exact ⟨free, topics⟩

theorem receive?_cases {after : Bus} (received : b.receive? name = some (message, after)) :
    ∃ rest, (b.topic name).subscription = .held ∧ (b.topic name).waiting = message :: rest ∧
      ∀ other, after.topic other = if other = name then
        { b.topic name with waiting := rest, taken := (b.topic name).taken + 1 } else b.topic other := by
  unfold receive? at received
  dsimp only at received
  split at received
  · rename_i m rest held waits
    obtain ⟨rfl, rfl⟩ := Prod.mk.inj (Option.some.inj received)
    exact ⟨rest, held, waits, fun other => topic_put b name other _⟩
  · cases received

theorem unfree_of_subscribe? {after : Bus} (subscribed : b.subscribe? name = some after) :
    (after.topic name).subscription ≠ .free := by
  rw [(subscribe?_cases subscribed).2, if_pos rfl]
  exact nofun

/-! ### What comes to a topic -/

/-- Messages have come to a topic, and nothing else has happened to it. -/
def Gains (b after : Bus) (topic : String) (messages : List String) : Prop :=
  after.topic topic = (b.topic topic).acceptAll messages

/-- What waits in a topic now and did not before. -/
def added (b after : Bus) (topic : String) : List String :=
  (after.topic topic).waiting.drop (b.topic topic).waiting.length

section

variable {after later : Bus} {topic : String} {messages more : List String}

theorem Gains.added_eq (gains : b.Gains after topic messages) : b.added after topic = messages := by
  unfold added
  rw [gains]
  exact List.drop_left

theorem Gains.waiting (gains : b.Gains after topic messages) :
    (after.topic topic).waiting = (b.topic topic).waiting ++ messages := by
  rw [gains]
  rfl

theorem gains_of_topic_eq (same : after.topic topic = b.topic topic) : b.Gains after topic [] := by
  rw [Gains, same, Topic.acceptAll, List.append_nil]
  rfl

theorem Gains.refl (b : Bus) (topic : String) : b.Gains b topic [] :=
  gains_of_topic_eq rfl

theorem Gains.trans (first : b.Gains after topic messages) (second : after.Gains later topic more) :
    b.Gains later topic (messages ++ more) := by
  rw [Gains, second, first]
  simp only [Topic.acceptAll, List.append_assoc, List.length_append, Nat.add_assoc]

theorem gains_publish? (accepted : b.publish? name message = some after) (topic : String) :
    b.Gains after topic (if topic = name then [message] else []) := by
  have kept : (b.topic name).subscription ≠ .gone := by
    intro gone
    rw [publish?_gone gone] at accepted
    cases accepted
  obtain ⟨_, made, topics⟩ := exists_publish? kept message
  obtain rfl := Option.some.inj (made.symm.trans accepted)
  split
  · rename_i here
    rw [Gains, topics, if_pos here, here]
    rfl
  · rename_i other
    exact gains_of_topic_eq ((topics topic).trans (if_neg other))

end

/-! ### What was taken -/

/-- How many messages were ever taken from a topic. -/
def takings (b : Bus) (name : String) : Nat :=
  (b.topic name).taken

theorem takings_put (b : Bus) (name other : String) (t : Topic) :
    (b.put name t).takings other = if other = name then t.taken else b.takings other := by
  unfold takings
  rw [topic_put]
  split
  · rfl
  · rfl

/-- Nothing is taken by putting a topic back with other messages or another subscription. -/
theorem takings_put_same {t : Topic} (same : t.taken = (b.topic name).taken) : (b.put name t).takings = b.takings := by
  funext other
  rw [takings_put]
  split
  · rename_i here
    rw [same, here]
    rfl
  · rfl

theorem takings_publish? {after : Bus} (accepted : b.publish? name message = some after) : after.takings = b.takings := by
  unfold publish? at accepted
  dsimp only at accepted
  split at accepted
  · cases accepted
  · obtain rfl := Option.some.inj accepted
    exact takings_put_same rfl

theorem takings_subscribe? {after : Bus} (subscribed : b.subscribe? name = some after) : after.takings = b.takings := by
  unfold subscribe? at subscribed
  dsimp only at subscribed
  split at subscribed
  · obtain rfl := Option.some.inj subscribed
    exact takings_put_same rfl
  · cases subscribed

theorem takings_unsubscribe (b : Bus) (name : String) : (b.unsubscribe name).takings = b.takings :=
  takings_put_same rfl

theorem takings_receive? {after : Bus} (received : b.receive? name = some (message, after)) (other : String) :
    after.takings other = b.takings other + if other = name then 1 else 0 := by
  obtain ⟨_, _, _, topics⟩ := receive?_cases received
  unfold takings
  rw [topics]
  split
  · rename_i here
    rw [here]
  · rfl

end Bus

end SoapRelay
