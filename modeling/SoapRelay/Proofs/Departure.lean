import SoapRelay.Proofs.Counters
import SoapRelay.Proofs.Forward
import SoapRelay.Proofs.Passage

/-!
# How calls enter and leave a registry

A call leaves without a reply for a cause that is known of each operation, and only a reply that finds nobody
waiting is counted as late. A call enters when it is placed, together with a request that can be read.
-/

namespace SoapRelay

/-! ### Calls that leave without a reply -/

namespace Registry

variable {r r' : Registry} {id : String} {p : PendingCall}

/-- Calls leave without a reply, each for a cause, and no reply is counted as late. -/
structure Drops (r r' : Registry) (cause : String × PendingCall → Prop) : Prop where
  lessens : r.Lessens r'
  late : r'.stats.late = r.stats.late
  lost : ∀ e ∈ r.entries, e ∈ r'.entries ∨ cause e

section

variable {cause : String × PendingCall → Prop} {stays : String × PendingCall → Bool} {new : List (Nat × Ending)}
  {kept : Nat × Ending → Bool}

theorem Drops.refl (valid : r.Valid) (cause : String × PendingCall → Prop) : r.Drops r cause :=
  ⟨.refl valid, rfl, fun _ member => Or.inl member⟩

theorem Sheds.drops (sheds : r.Sheds r' stays new kept) (valid : r.Valid)
    (silent : ∀ serial text, (serial, .reply text) ∉ new) (late : r'.stats.late = r.stats.late)
    (gone : ∀ e ∈ r.entries, stays e = false → cause e) : r.Drops r' cause := by
  refine ⟨sheds.lessens valid silent, late, ?_⟩
  intro e member
  cases stay : stays e with
  | true => exact Or.inl (sheds.mem_entries.mpr ⟨member, stay⟩)
  | false => exact Or.inr (gone e member stay)

theorem Sheds.drops_every (sheds : r.Sheds r' every [] kept) (valid : r.Valid)
    (late : r'.stats.late = r.stats.late) : r.Drops r' cause :=
  sheds.drops valid nofun late nofun

/-- A call that was pending still is, or its id is free. -/
theorem Drops.stays_or_goes (drops : r.Drops r' cause) (valid : r.Valid) (pending : r.find? id = some p) :
    r'.find? id = some p ∨ r'.find? id = none ∧ cause (id, p) := by
  have member := (find?_eq_some_iff valid.toShaped).mp pending
  by_cases stays : (id, p) ∈ r'.entries
  · exact Or.inl ((find?_eq_some_iff drops.lessens.valid.toShaped).mpr stays)
  · refine Or.inr ⟨?_, (drops.lost _ member).resolve_left stays⟩
    rw [find?_eq_none_iff drops.lessens.valid.toShaped]
    intro q other
    have same := valid.eq_of_id (drops.lessens.entries _ other) member rfl
    exact stays (same ▸ other)

end

theorem sweep_drops (valid : r.Valid) (now : Nat) : r.Drops (r.sweep now).2 (·.2.deadline ≤ now) := by
  refine (sweep_sheds valid now).drops valid ?_ rfl ?_
  · intro serial text member
    obtain ⟨_, _, same⟩ := List.mem_map.mp member
    cases same
  · intro e _ gone
    exact of_decide_eq_true (Bool.not_eq_false' .. ▸ gone)

theorem cancel_drops (valid : r.Valid) (id : String) : r.Drops (r.cancel id).2 (·.1 = id) := by
  have late : (r.cancel id).2.stats.late = r.stats.late := by
    rw [stats_cancel]
    split
    · rfl
    · rfl
  rcases cancel_cases valid.toShaped id with ⟨_, _, _, sheds⟩ | ⟨_, _, same⟩
  · refine sheds.drops valid ?_ late fun e _ gone => bne_eq_false_iff_eq.mp gone
    intro serial text member
    cases List.mem_singleton.mp member
  · rw [same]
    exact .refl valid _

/-- Whoever holds a ticket can only take out its own call. -/
theorem serial_of_gone (valid : r.Valid) {t : Ticket} (pending : (t.id, p) ∈ r.entries) (own : p.serial = t.serial) :
    ∀ e ∈ r.entries, (e.1 != t.id) = false → e.2.serial = t.serial := by
  intro e member gone
  rw [valid.eq_of_id member pending (bne_eq_false_iff_eq.mp gone)]
  exact own

theorem release_drops (valid : r.Valid) (t : Ticket) : r.Drops (r.release t) (·.2.serial = t.serial) := by
  have late : (r.release t).stats.late = r.stats.late := by
    rw [stats_release]
    split
    · rfl
    · rfl
  rcases release_cases valid t with ⟨p, pending, own, sheds⟩ | ⟨_, sheds⟩
  · exact sheds.drops valid nofun late (serial_of_gone valid pending own)
  · exact sheds.drops_every valid late

theorem await_drops (valid : r.Valid) (t : Ticket) (until_ now : Nat) :
    r.Drops (r.await t until_ now).2 fun e => until_ ≤ now ∧ e.2.serial = t.serial := by
  have late : (r.await t until_ now).2.stats.late = r.stats.late := by
    rw [stats_await]
    split
    · rfl
    · rfl
  rcases await_cases valid t until_ now with
    ⟨_, _, _, sheds⟩ | ⟨_, ⟨due, _, ⟨p, pending, own⟩, sheds⟩ | ⟨_, told, _⟩ | ⟨_, waits⟩⟩
  · exact sheds.drops_every valid late
  · exact sheds.drops valid nofun late fun e member gone => ⟨due, serial_of_gone valid pending own e member gone⟩
  · rw [told]
    exact .refl valid _
  · rw [waits]
    exact .refl valid _

/-! ### Calls that get a reply -/

theorem resolve_valid (valid : r.Valid) (now : Nat) (id reply : String) : (r.resolve now id reply).2.Valid := by
  rcases resolve_cases valid.toShaped now id reply with ⟨_, _, _, sheds⟩ | ⟨_, _, sheds⟩
  · exact sheds.valid valid
  · exact sheds.valid valid

theorem find?_resolve_of_ne {other : String} (valid : r.Valid) (apart : other ≠ id) (pending : r.find? other = some p)
    (now : Nat) (reply : String) :
    (r.resolve now id reply).2.find? other = some p := by
  have member := (find?_eq_some_iff valid.toShaped).mp pending
  refine (find?_eq_some_iff (resolve_valid valid now id reply).toShaped).mpr ?_
  rcases resolve_cases valid.toShaped now id reply with ⟨_, _, _, sheds⟩ | ⟨_, _, sheds⟩
  · exact sheds.mem_entries.mpr ⟨member, bne_iff_ne.mpr apart⟩
  · exact sheds.mem_entries.mpr ⟨member, rfl⟩

/-- A reply to a pending call is left for its caller, and the call is completed. -/
theorem resolve_pending (valid : r.Valid) (pending : r.find? id = some p) (now : Nat) (reply : String) :
    (r.resolve now id reply).2.find? id = none ∧ (p.serial, .reply reply) ∈ (r.resolve now id reply).2.endings ∧
      (r.resolve now id reply).2.stats.completed = r.stats.completed + 1 ∧
      (r.resolve now id reply).2.stats.late = r.stats.late := by
  have stats := stats_resolve r now id reply
  rw [pending] at stats
  have member := (find?_eq_some_iff valid.toShaped).mp pending
  rcases resolve_cases valid.toShaped now id reply with ⟨q, found, _, sheds⟩ | ⟨absent, _⟩
  · refine ⟨?_, ?_, congrArg (·.completed) stats, congrArg (·.late) stats⟩
    · rw [find?_eq_none_iff (resolve_valid valid now id reply).toShaped]
      intro q still
      exact bne_iff_ne.mp (sheds.mem_entries.mp still).2 rfl
    · obtain rfl : p = q := congrArg Prod.snd (valid.eq_of_id member found rfl)
      exact sheds.mem_endings.mpr (Or.inl (List.mem_singleton_self _))
  · exact absurd member (absent p)

end Registry

namespace Client

variable {s : Scene Traffic} {id : CallId} {request : ForwardRequest}

/-- How placing a call comes out: refused, or registered with a request that is read under its id. -/
inductive Registers (s : Scene Traffic) (id : CallId) : Scene Traffic × Except ForwardError Placed → Prop where
  | refused {s' : Scene Traffic} {error : ForwardError}
      (drops : s.env.desk.registry.Drops s'.env.desk.registry fun _ => False) : Registers s id (s', .error error)
  | placed {s' : Scene Traffic} {p : Placed} {call : PendingCall}
      (new : s.env.desk.registry.find? id.text = none)
      (enters : s.env.desk.registry.Enters s'.env.desk.registry (id.text, call))
      (late : s'.env.desk.registry.stats.late = s.env.desk.registry.stats.late) (same : p.request.id = id)
      (read : Request.id? p.request.encode = some id) : Registers s id (s', .ok p)

theorem register_registers (c : Client) (valid : s.env.desk.registry.Valid) {signed : Request}
    (read : Request.id? signed.encode = some signed.id) : Registers s signed.id (c.register s signed) := by
  unfold register
  split
  · exact .refused (.refl valid _)
  · rename_i deadline _
    have late : (s.env.desk.registry.register s.now signed.id deadline).2.stats.late =
        s.env.desk.registry.stats.late := by
      rw [Registry.stats_register]
      split
      · rfl
      · rfl
    rcases Registry.register_cases valid.toShaped s.now signed.id deadline with
      ⟨_, _, refused, sheds⟩ | ⟨absent, accepted, enters⟩
    · rw [← Prod.eta (s.env.desk.registry.register s.now signed.id deadline), refused]
      exact .refused (sheds.drops_every valid late)
    · rw [← Prod.eta (s.env.desk.registry.register s.now signed.id deadline), accepted]
      exact .placed ((Registry.find?_eq_none_iff valid.toShaped).mpr absent) enters late rfl read

theorem place_registers (c : Client) (id : CallId) (request : ForwardRequest) (valid : s.env.desk.registry.Valid) :
    Registers s id (c.place s id request) := by
  unfold place
  cases sealing : c.signer.sign? (Client.request id request) with
  | none => exact .refused (.refl valid _)
  | some signed =>
    have same := (carries_of_sign? sealing).id
    have read := Request.id?_eq_some (Request.decode_encode (separator_not_mem_of_sign? sealing))
    have registered := c.register_registers (s := s.withEnv (s.env.noteSigned signed)) valid read
    dsimp only
    rw [same] at registered
    generalize c.register _ _ = result at registered ⊢
    cases registered with
    | refused drops => exact .refused drops
    | placed new enters late same read => exact .placed new enters late same read

end Client

end SoapRelay
