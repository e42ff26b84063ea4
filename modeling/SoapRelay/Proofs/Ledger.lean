import SoapRelay.Proofs.Counters

/-!
# A ledger of registrations

The serials that were registered in a run of a hall, and those whose registrations ended one way or another. Every
serial that was registered is in one of these lists once, or its call is pending still, and the counters are the
lengths of the lists. So what a registration adds to the counters is what it adds to the lists.
-/

namespace SoapRelay

/-- How a registration ends, as far as it is counted. -/
inductive Way where
  | completed
  | timedOut
  | cancelled
  deriving DecidableEq, Repr

def RegistryStats.counter (s : RegistryStats) : Way → UInt64
  | .completed => s.completed
  | .timedOut => s.timedOut
  | .cancelled => s.cancelled

def Ending.way : Ending → Way
  | .reply _ => .completed
  | .timedOut => .timedOut
  | .cancelled => .cancelled

namespace Registry

variable {r r' : Registry} {id : String} {p : PendingCall} {way : Way}

def serials (r : Registry) : List Nat :=
  r.entries.map (·.2.serial)

/-- The serials of the calls that are pending in one registry and not in another. -/
def departed (r r' : Registry) : List Nat :=
  (r.entries.filter fun e => e ∉ r'.entries).map (·.2.serial)

/-- Calls leave in one way and are counted, and none comes in. -/
structure Leaves (r r' : Registry) (way : Way) : Prop where
  counted : ∀ w, r'.stats.counter w =
    r.stats.counter w + if w = way then UInt64.ofNat (r.departed r').length else 0
  registered : r'.stats.registered = r.stats.registered
  serials : r.serials.Perm (r.departed r' ++ r'.serials)

section

variable {stays : String × PendingCall → Bool} {new : List (Nat × Ending)} {kept : Nat × Ending → Bool}

theorem Sheds.departed_eq (sheds : r.Sheds r' stays new kept) :
    r.departed r' = (r.entries.filter fun e => !stays e).map (·.2.serial) := by
  unfold departed
  congr 1
  apply List.filter_congr
  intro e member
  have stayed : e ∈ r'.entries ↔ stays e = true := sheds.mem_entries.trans (and_iff_right member)
  simp [stayed]

theorem Sheds.serials_perm (sheds : r.Sheds r' stays new kept) : r.serials.Perm (r.departed r' ++ r'.serials) := by
  rw [sheds.departed_eq, serials, serials, sheds.entries_eq, ← List.map_append]
  have parts := List.filter_append_perm stays r.entries
  exact (parts.symm.trans List.perm_append_comm).map _

theorem Sheds.leaves_every (sheds : r.Sheds r' every new kept) (registered : r'.stats.registered = r.stats.registered)
    (counted : ∀ w, r'.stats.counter w = r.stats.counter w) : r.Leaves r' way := by
  refine ⟨?_, registered, sheds.serials_perm⟩
  have none : r.departed r' = [] := by
    rw [sheds.departed_eq]
    exact List.map_eq_nil_iff.mpr (List.filter_eq_nil_iff.mpr fun _ _ => nofun)
  intro w
  rw [counted, none]
  simp

theorem Sheds.leaves_one (sheds : r.Sheds r' (·.1 != id) new kept) (valid : r.Valid) (pending : (id, p) ∈ r.entries)
    (registered : r'.stats.registered = r.stats.registered)
    (counted : ∀ w, r'.stats.counter w = r.stats.counter w + if w = way then 1 else 0) : r.Leaves r' way := by
  refine ⟨?_, registered, sheds.serials_perm⟩
  have one : (r.departed r').length = 1 := by
    rw [sheds.departed_eq, List.length_map]
    exact length_removed valid pending
  intro w
  rw [counted, one]
  rfl

end

theorem Leaves.refl (r : Registry) (way : Way) : r.Leaves r way :=
  (Sheds.nothing rfl rfl (Nat.le_refl _) rfl).leaves_every rfl fun _ => rfl

theorem resolve_leaves (valid : r.Valid) (now : Nat) (id reply : String) :
    r.Leaves (r.resolve now id reply).2 .completed := by
  have stats := stats_resolve r now id reply
  rcases resolve_cases valid.toShaped now id reply with ⟨p, pending, _, sheds⟩ | ⟨absent, _, sheds⟩
  · rw [(find?_eq_some_iff valid.toShaped).mpr pending] at stats
    refine sheds.leaves_one valid pending (by rw [stats]; rfl) ?_
    intro w
    rw [stats]
    cases w with
    | completed => rfl
    | timedOut => exact (UInt64.add_zero _).symm
    | cancelled => exact (UInt64.add_zero _).symm
  · rw [(find?_eq_none_iff valid.toShaped).mpr absent] at stats
    refine sheds.leaves_every (by rw [stats]) ?_
    intro w
    rw [stats]
    cases w with
    | completed => rfl
    | timedOut => rfl
    | cancelled => rfl

theorem counter_cancelled (s : RegistryStats) (w : Way) :
    RegistryStats.counter { s with cancelled := s.cancelled + 1 } w = s.counter w + if w = .cancelled then 1 else 0 := by
  cases w with
  | completed => exact (UInt64.add_zero _).symm
  | timedOut => exact (UInt64.add_zero _).symm
  | cancelled => rfl

theorem counter_timedOut (s : RegistryStats) (n : UInt64) (w : Way) :
    RegistryStats.counter { s with timedOut := s.timedOut + n } w = s.counter w + if w = .timedOut then n else 0 := by
  cases w with
  | completed => exact (UInt64.add_zero _).symm
  | timedOut => rfl
  | cancelled => exact (UInt64.add_zero _).symm

theorem cancel_leaves (valid : r.Valid) (id : String) : r.Leaves (r.cancel id).2 .cancelled := by
  rcases cancel_cases valid.toShaped id with ⟨p, pending, _, sheds⟩ | ⟨_, _, same⟩
  · have stats := stats_cancel r id
    rw [contains, (find?_eq_some_iff valid.toShaped).mpr pending, Option.isSome_some, if_pos rfl] at stats
    refine sheds.leaves_one valid pending (by rw [stats]) ?_
    intro w
    rw [stats, counter_cancelled]
  · rw [same]
    exact .refl r .cancelled

theorem release_leaves (valid : r.Valid) (t : Ticket) : r.Leaves (r.release t) .cancelled := by
  have stats := stats_release r t
  rcases release_cases valid t with ⟨p, pending, same, sheds⟩ | ⟨gone, sheds⟩
  · rw [if_pos ((owns_iff valid.toShaped).mpr ⟨p, pending, same⟩)] at stats
    refine sheds.leaves_one valid pending (by rw [stats]) ?_
    intro w
    rw [stats, counter_cancelled]
  · rw [if_neg fun own => gone ((owns_iff valid.toShaped).mp own)] at stats
    refine sheds.leaves_every (by rw [stats]) ?_
    intro w
    rw [stats]

theorem sweep_leaves (valid : r.Valid) (now : Nat) : r.Leaves (r.sweep now).2 .timedOut := by
  have sheds := sweep_sheds valid now
  refine ⟨?_, rfl, sheds.serials_perm⟩
  intro w
  rw [sheds.departed_eq, List.length_map, length_swept, stats_sweep]
  exact counter_timedOut r.stats _ w

theorem await_leaves (valid : r.Valid) (t : Ticket) (until_ now : Nat) :
    r.Leaves (r.await t until_ now).2 .timedOut := by
  have stats := stats_await r t until_ now
  rcases await_cases valid t until_ now with
    ⟨ending, left, _, sheds⟩ | ⟨absent, ⟨late, _, ⟨p, pending, same⟩, sheds⟩ | ⟨_, told, _⟩ | ⟨_, waits⟩⟩
  · rw [(endingOf?_eq_some_iff valid).mpr left, if_neg fun no => nomatch no.1] at stats
    refine sheds.leaves_every (by rw [stats]) ?_
    intro w
    rw [stats]
  · have empty : r.endingOf? t = none := by
      refine Option.eq_none_iff_forall_ne_some.mpr fun ending found => ?_
      exact absent ending ((endingOf?_eq_some_iff valid).mp found)
    rw [if_pos ⟨empty, late, (owns_iff valid.toShaped).mpr ⟨p, pending, same⟩⟩] at stats
    refine sheds.leaves_one valid pending (by rw [stats]) ?_
    intro w
    rw [stats, counter_timedOut]
  · rw [told]
    exact .refl r .timedOut
  · rw [waits]
    exact .refl r .timedOut

end Registry

namespace Hall

open Registry

variable {x y : Hall} {op : Op} {ops : List Op} {events : List Event} {t : Ticket} {serial : Nat}

/-- The way in which the calls end that an operation ends. -/
def Op.way : Op → Way
  | .resolve _ _ => .completed
  | .look _ => .timedOut
  | .sweep => .timedOut
  | _ => .cancelled

namespace Event

def begun (e : Event) : List Nat :=
  match e.answer with
  | .registered t => [t.serial]
  | _ => []

def ended (way : Way) (e : Event) : List Nat :=
  if e.op.way = way then e.before.registry.departed e.after.registry else []

end Event

def begun (events : List Event) : List Nat :=
  events.flatMap Event.begun

def ended (way : Way) (events : List Event) : List Nat :=
  events.flatMap (Event.ended way)

/-- What an operation adds to the ledger. -/
structure Posts (e : Event) : Prop where
  counted : ∀ way, e.after.registry.stats.counter way =
    e.before.registry.stats.counter way + UInt64.ofNat (e.ended way).length
  registered : e.after.registry.stats.registered = e.before.registry.stats.registered + UInt64.ofNat e.begun.length
  balanced : ∀ serial, e.before.registry.serials.count serial + e.begun.count serial =
    (e.ended .completed).count serial + (e.ended .timedOut).count serial + (e.ended .cancelled).count serial +
      e.after.registry.serials.count serial
  issued : ∀ serial ∈ e.begun, e.before.registry.nextSerial ≤ serial ∧ serial < e.after.registry.nextSerial

theorem count_ended (e : Event) (serial : Nat) :
    (e.ended .completed).count serial + (e.ended .timedOut).count serial + (e.ended .cancelled).count serial =
      (e.before.registry.departed e.after.registry).count serial := by
  unfold Event.ended
  cases e.op.way with
  | completed => simp
  | timedOut => simp
  | cancelled => simp

theorem posts_of_leaves (leaves : x.registry.Leaves (x.step op).2.registry op.way)
    (quiet : ∀ t, (x.step op).1 ≠ .registered t) : Posts (x.event op) := by
  have none : (x.event op).begun = [] := by
    unfold Event.begun
    split
    · rename_i t answer
      exact absurd answer (quiet t)
    · rfl
  refine ⟨?_, ?_, ?_, ?_⟩
  · intro way
    refine (leaves.counted way).trans (congrArg (_ + ·) ?_)
    unfold Event.ended
    by_cases same : way = op.way
    · rw [if_pos same, if_pos (show (x.event op).op.way = way from same.symm)]
      rfl
    · rw [if_neg same, if_neg (show (x.event op).op.way ≠ way from fun no => same no.symm)]
      rfl
  · rw [none]
    exact leaves.registered.trans (UInt64.add_zero _).symm
  · intro serial
    rw [count_ended, none]
    exact (leaves.serials.count_eq serial).trans List.count_append
  · rw [none]
    nofun

theorem posts_of_enters {e : Event} {call : String × PendingCall}
    (enters : e.before.registry.Enters e.after.registry call) (begun : e.begun = [call.2.serial])
    (stats : e.after.registry.stats =
      { e.before.registry.stats with registered := e.before.registry.stats.registered + 1 }) : Posts e := by
  have stay : e.before.registry.departed e.after.registry = [] := by
    refine List.map_eq_nil_iff.mpr (List.filter_eq_nil_iff.mpr fun f member => ?_)
    have stays := enters.mem_entries.mpr (Or.inr member)
    simp [stays]
  have none : ∀ way, e.ended way = [] := by
    intro way
    rw [Event.ended, stay, ite_self]
  have next := enters.serial
  have fresh := enters.fresh
  refine ⟨?_, ?_, ?_, ?_⟩
  · intro way
    rw [none, stats]
    cases way with
    | completed => exact (UInt64.add_zero _).symm
    | timedOut => exact (UInt64.add_zero _).symm
    | cancelled => exact (UInt64.add_zero _).symm
  · rw [begun, stats]
    rfl
  · intro serial
    have serials := (enters.entries.map (·.2.serial)).count_eq serial
    rw [List.map_cons, ← List.singleton_append, List.count_append] at serials
    rw [none, none, none, begun, Registry.serials, Registry.serials, serials]
    simp only [List.count_nil]
    omega
  · rw [begun]
    intro serial member
    obtain rfl := List.mem_singleton.mp member
    omega

theorem look_quiet (x : Hall) (h : Handle) (t : Ticket) : (x.look h).1 ≠ .registered t := by
  unfold look
  split
  · split
    · nofun
    · nofun
  · nofun

theorem drop_quiet (x : Hall) (h : Handle) (t : Ticket) : (x.drop h).1 ≠ .registered t := by
  unfold drop
  split
  · nofun
  · nofun

theorem register_posts (sound : x.Sound) (h : Handle) (deadline : Nat) : Posts (x.event (.register h deadline)) := by
  have stats := stats_register x.registry x.now h.id deadline
  rcases register_acts x h deadline with ⟨taken, same⟩ | ⟨acts, told⟩
  · refine posts_of_leaves ?_ ?_
    · show x.registry.Leaves (x.register h deadline).2.registry .cancelled
      rw [same]
      exact .refl x.registry .cancelled
    · intro t answer
      cases taken.symm.trans answer
  · rcases register_cases sound.valid.toShaped x.now h.id deadline with
      ⟨p, pending, refused, sheds⟩ | ⟨absent, accepted, enters⟩
    · rw [contains, (find?_eq_some_iff sound.valid.toShaped).mpr pending, Option.isSome_some, if_pos rfl] at stats
      rw [refused] at told
      refine posts_of_leaves ?_ ?_
      · show x.registry.Leaves (x.register h deadline).2.registry .cancelled
        rw [acts]
        exact sheds.leaves_every (by rw [stats]) fun w => by rw [stats]
      · intro t answer
        cases told.symm.trans answer
    · rw [contains, (find?_eq_none_iff sound.valid.toShaped).mpr absent, Option.isSome_none, if_neg Bool.false_ne_true] at stats
      rw [accepted] at told
      rw [← acts] at enters stats
      refine posts_of_enters enters ?_ stats
      unfold Event.begun
      rw [show (x.event (.register h deadline)).answer = _ from told]

theorem step_posts (sound : x.Sound) (op : Op) : Posts (x.event op) := by
  have valid := sound.valid
  cases op with
  | register h deadline => exact register_posts sound h deadline
  | wait h until? =>
    refine posts_of_leaves ?_ ?_
    · show x.registry.Leaves (x.wait h until?).2.registry .cancelled
      rw [wait_acts]
      exact .refl x.registry .cancelled
    · intro t
      show (x.wait h until?).1 ≠ _
      unfold wait
      split
      · nofun
      · nofun
  | look h =>
    refine posts_of_leaves ?_ ?_
    · show x.registry.Leaves (x.look h).2.registry .timedOut
      rcases look_acts x h with same | ⟨t, until_, acts⟩
      · rw [same]
        exact .refl x.registry .timedOut
      · rw [acts]
        exact await_leaves valid t until_ x.now
    · exact look_quiet x h
  | drop h =>
    refine posts_of_leaves ?_ ?_
    · show x.registry.Leaves (x.drop h).2.registry .cancelled
      rcases drop_acts x h with same | ⟨t, acts⟩
      · rw [same]
        exact .refl x.registry .cancelled
      · rw [acts]
        exact release_leaves valid t
    · exact drop_quiet x h
  | resolve id reply => exact posts_of_leaves (resolve_leaves valid x.now id reply) nofun
  | cancel id => exact posts_of_leaves (cancel_leaves valid id) nofun
  | sweep => exact posts_of_leaves (sweep_leaves valid x.now) nofun
  | pass time => exact posts_of_leaves (.refl x.registry .cancelled) nofun

/-! ### Runs -/

theorem begun_append (first second : List Event) : begun (first ++ second) = begun first ++ begun second :=
  List.flatMap_append

theorem ended_append (way : Way) (first second : List Event) :
    ended way (first ++ second) = ended way first ++ ended way second :=
  List.flatMap_append

theorem begun_singleton (e : Event) : begun [e] = e.begun :=
  List.append_nil _

theorem ended_singleton (way : Way) (e : Event) : ended way [e] = e.ended way :=
  List.append_nil _

/-- The ledger of a run that has come to a hall. -/
structure Ledger (x : Hall) (events : List Event) : Prop where
  counted : ∀ way, x.registry.stats.counter way = UInt64.ofNat (ended way events).length
  registered : x.registry.stats.registered = UInt64.ofNat (begun events).length
  /-- A serial that was registered has ended one way, or its call is pending. -/
  balanced : ∀ serial, (begun events).count serial =
    (ended .completed events).count serial + (ended .timedOut events).count serial +
      (ended .cancelled events).count serial + x.registry.serials.count serial
  issued : ∀ serial ∈ begun events, serial < x.registry.nextSerial
  once : ∀ serial, (begun events).count serial ≤ 1

theorem Ledger.next (ledger : x.Ledger events) (sound : x.Sound) (op : Op) :
    (x.step op).2.Ledger (events ++ [x.event op]) := by
  have posts := step_posts sound op
  have next := nextSerial_le sound op
  refine ⟨?_, ?_, ?_, ?_, ?_⟩
  · intro way
    rw [ended_append, ended_singleton, List.length_append, UInt64.ofNat_add, ← ledger.counted]
    exact posts.counted way
  · rw [begun_append, begun_singleton, List.length_append, UInt64.ofNat_add, ← ledger.registered]
    exact posts.registered
  · intro serial
    have before := ledger.balanced serial
    have added : x.registry.serials.count serial + (x.event op).begun.count serial =
        ((x.event op).ended .completed).count serial + ((x.event op).ended .timedOut).count serial +
          ((x.event op).ended .cancelled).count serial + (x.step op).2.registry.serials.count serial :=
      posts.balanced serial
    simp only [begun_append, ended_append, begun_singleton, ended_singleton, List.count_append]
    omega
  · intro serial member
    rw [begun_append, begun_singleton] at member
    rcases List.mem_append.mp member with old | new
    · exact Nat.lt_of_lt_of_le (ledger.issued serial old) next
    · exact (posts.issued serial new).2
  · intro serial
    have one : (x.event op).begun.count serial ≤ 1 := by
      unfold Event.begun
      split
      · exact List.count_le_length
      · exact Nat.zero_le _
    rw [begun_append, begun_singleton, List.count_append]
    -- what was registered before lies below the next serial, and what is registered now does not
    by_cases new : serial ∈ (x.event op).begun
    · have old : serial ∉ begun events := by
        intro member
        have fresh : x.registry.nextSerial ≤ serial := (posts.issued serial new).1
        have issued := ledger.issued serial member
        omega
      rw [List.count_eq_zero_of_not_mem old]
      omega
    · rw [List.count_eq_zero_of_not_mem new]
      exact ledger.once serial

theorem start_ledger (shards : Nat) (hash : String → UInt64) : (start shards hash).Ledger [] := by
  have none : (start shards hash).registry.serials = [] := by
    rw [serials, show (start shards hash).registry.entries = [] from entries_create shards hash]
    rfl
  refine ⟨?_, rfl, ?_, nofun, fun _ => Nat.zero_le 1⟩
  · intro way
    cases way with
    | completed => rfl
    | timedOut => rfl
    | cancelled => rfl
  · intro serial
    rw [none]
    rfl

theorem after_ledger (shards : Nat) (hash : String → UInt64) (ops : List Op) :
    ((start shards hash).after ops).Ledger ((start shards hash).events ops) := by
  induction ops using List.reverseRecOn with
  | nil => exact start_ledger shards hash
  | append_singleton ops op ih =>
    rw [after_append, events_append]
    exact ih.next (after_sound (start_sound shards hash) ops) op

/-- A registration that is over ended in one way, once. -/
theorem Ledger.ended_once (ledger : x.Ledger events) (begins : serial ∈ begun events)
    (gone : serial ∉ x.registry.serials) :
    ∃ way, ∀ w, (ended w events).count serial = if w = way then 1 else 0 := by
  have balanced := ledger.balanced serial
  have once := ledger.once serial
  have some_ := List.count_pos_iff.mpr begins
  rw [List.count_eq_zero_of_not_mem gone] at balanced
  have others : ∀ way w, (ended way events).count serial = 1 → w ≠ way → (ended w events).count serial = 0 := by
    intro way w one other
    cases way <;> cases w <;> first | omega | exact absurd rfl other
  obtain ⟨way, one⟩ : ∃ way, (ended way events).count serial = 1 := by
    have cases : (ended .completed events).count serial = 1 ∨ (ended .timedOut events).count serial = 1 ∨
        (ended .cancelled events).count serial = 1 := by omega
    rcases cases with one | one | one
    · exact ⟨_, one⟩
    · exact ⟨_, one⟩
    · exact ⟨_, one⟩
  refine ⟨way, fun w => ?_⟩
  split
  · rename_i same
    rw [same, one]
  · rename_i other
    exact others way w one other

def others (serial : Nat) (serials : List Nat) : List Nat :=
  serials.filter (· ≠ serial)

theorem length_others (serials : List Nat) (serial : Nat) :
    serials.length = (others serial serials).length + serials.count serial := by
  have parts := List.length_eq_countP_add_countP (l := serials) (· == serial)
  rw [parts, others, ← List.countP_eq_length_filter, Nat.add_comm]
  congr 1
  apply List.countP_congr
  intro n _
  simp

/-! ### How a caller was told -/

theorem ended_of_ends (sound : x.Sound) (ends : (x.event op).Ends t) : t.serial ∈ (x.event op).ended op.way := by
  obtain ⟨⟨p, pending, same⟩, gone⟩ := (ends_iff sound).mp ends
  have left : (t.id, p) ∉ (x.step op).2.registry.entries := fun stays => gone ⟨p, stays, same⟩
  unfold Event.ended
  rw [if_pos (show (x.event op).op.way = op.way from rfl)]
  refine List.mem_map.mpr ⟨(t.id, p), ?_, same⟩
  exact List.mem_filter.mpr ⟨pending, decide_eq_true left⟩

theorem way_of_brings {e : Event} {ending : Ending} (brings : e.Brings t ending) : e.op.way = ending.way := by
  cases ending with
  | reply text => rw [brings.1]; rfl
  | timedOut => rw [show e.op = _ from brings]; rfl
  | cancelled => rw [brings.1]; rfl

/-- What a caller was told is the way in which its registration ended. -/
theorem ended_of_tells {shards : Nat} {hash : String → UInt64} {e : Event} {ending : Ending}
    (member : e ∈ (start shards hash).events ops) (tells : e.Tells t ending) :
    t.serial ∈ ended ending.way ((start shards hash).events ops) := by
  obtain ⟨-, c, found, ends, cause⟩ := tells_cause member tells
  have way : c.op.way = ending.way := by
    rcases cause with brings | ⟨rfl, rfl⟩
    · exact way_of_brings brings
    · obtain ⟨-, h, -, looks, -⟩ := tells
      rw [looks]
      rfl
  obtain ⟨past, op, rest, -, rfl⟩ := exists_of_mem_events found
  have left := ended_of_ends (after_sound (start_sound shards hash) past) ends
  rw [show op.way = ending.way from way] at left
  exact List.mem_flatMap.mpr ⟨_, found, left⟩

end Hall

end SoapRelay
