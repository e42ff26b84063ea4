import SoapRelay.Proofs.Entries

/-!
# What a ticket shows

A caller finds the end of its call in the slot of its ticket. Each operation on a registry is described
by what it does to the slot of a ticket and to the time at which the call under an id is due, so that
nothing else of the registry has to be known to tell what a caller sees.
-/

namespace SoapRelay

inductive Slot where
  | empty
  | filled (ending : Ending)
  /-- Nothing has been sent, and nobody can send any more. -/
  | closed
  deriving DecidableEq, Repr

/-- An ending reaches a slot that is open and empty, and no other. -/
def Slot.send (ending : Ending) : Slot → Slot
  | .empty => .filled ending
  | s => s

/-- What a caller is told that looks, by whether its time has come. -/
def Slot.told? (late : Bool) : Slot → Option Ending
  | .filled ending => some ending
  | .empty => if late then some .timedOut else none
  | .closed => if late then some .cancelled else none

theorem Slot.send_of_ne_empty {s : Slot} {ending : Ending} (full : s ≠ .empty) : s.send ending = s := by
  cases s with
  | empty => exact absurd rfl full
  | filled => rfl
  | closed => rfl

theorem filter_of_forall {α : Type} {p : α → Bool} (o : Option α) (all : ∀ a, p a = true) : o.filter p = o := by
  cases o with
  | none => rfl
  | some a => exact Option.filter_some_pos (all a)

namespace Registry

variable {r r' : Registry} {t u : Ticket} {id : String} {p : PendingCall} {ending : Ending} {now : Nat}
  {stays : String × PendingCall → Bool} {new : List (Nat × Ending)} {kept : Nat × Ending → Bool}

/-- As long as the call is pending, its ending can still be sent. -/
def slot (r : Registry) (t : Ticket) : Slot :=
  match r.endingOf? t with
  | some ending => .filled ending
  | none => if r.owns t then .empty else .closed

/-- When the call that is pending under an id times out. -/
def due? (r : Registry) (id : String) : Option Nat :=
  (r.find? id).map (·.deadline)

theorem slot_congr (left : r'.endingOf? t = r.endingOf? t) (own : r'.owns t = r.owns t) : r'.slot t = r.slot t := by
  rw [slot, slot, left, own]

theorem slot_eq_filled_iff (valid : r.Valid) : r.slot t = .filled ending ↔ (t.serial, ending) ∈ r.endings := by
  rw [← endingOf?_eq_some_iff valid, slot]
  cases r.endingOf? t with
  | some other => simp
  | none => by_cases own : r.owns t <;> simp [own]

theorem slot_eq_empty_iff (valid : r.Valid) :
    r.slot t = .empty ↔ ∃ p, (t.id, p) ∈ r.entries ∧ p.serial = t.serial := by
  rw [← owns_iff valid.toShaped, slot]
  cases left : r.endingOf? t with
  | some ending =>
    refine ⟨nofun, fun own => ?_⟩
    obtain ⟨p, pending, same⟩ := (owns_iff valid.toShaped).mp own
    exact absurd same (valid.apart _ pending _ ((endingOf?_eq_some_iff valid).mp left))
  | none => by_cases own : r.owns t <;> simp [own]

theorem isSome_due? (r : Registry) (id : String) : (r.due? id).isSome = r.contains id :=
  Option.isSome_map

/-! ### Entries that leave and enter -/

theorem Sheds.find?_eq (sheds : r.Sheds r' stays new kept) (shaped : r.Shaped) (id : String) :
    r'.find? id = (r.find? id).filter fun p => stays (id, p) := by
  have after : r'.Shaped := (shaped.retain stays).of_eq sheds.hash sheds.shards
  ext p
  rw [find?_eq_some_iff after, sheds.mem_entries, ← find?_eq_some_iff shaped, Option.filter_eq_some_iff]

theorem Enters.find?_eq {e : String × PendingCall} (enters : r.Enters r' e) (shaped : r.Shaped) (id : String) :
    r'.find? id = if id = e.1 then some e.2 else r.find? id := by
  split
  · rename_i same
    rw [find?_eq_some_iff enters.shaped, enters.mem_entries, same]
    exact Or.inl rfl
  · rename_i other
    ext p
    rw [find?_eq_some_iff enters.shaped, enters.mem_entries, find?_eq_some_iff shaped]
    refine ⟨fun member => member.resolve_left ?_, Or.inr⟩
    rintro rfl
    exact other rfl

/-- The registry gave this ticket out: its serial is used up, and only under its id. -/
structure Issued (r : Registry) (t : Ticket) : Prop where
  before : t.serial < r.nextSerial
  home : ∀ e ∈ r.entries, e.2.serial = t.serial → e.1 = t.id

theorem Sheds.issued (sheds : r.Sheds r' stays new kept) (issued : r.Issued t) : r'.Issued t :=
  ⟨Nat.lt_of_lt_of_le issued.before sheds.serial, fun e member => issued.home e (sheds.mem_entries.mp member).1⟩

theorem Enters.issued {e : String × PendingCall} (enters : r.Enters r' e) (issued : r.Issued t) : r'.Issued t := by
  have next := enters.serial
  have fresh := enters.fresh
  have before := issued.before
  refine ⟨by omega, fun f member same => ?_⟩
  rcases enters.mem_entries.mp member with rfl | old
  · omega
  · exact issued.home f old same

theorem Enters.issued_new {e : String × PendingCall} (enters : r.Enters r' e) (valid : r.Valid) (id : t.id = e.1)
    (serial : t.serial = e.2.serial) : r'.Issued t := by
  have next := enters.serial
  have fresh := enters.fresh
  refine ⟨by omega, fun f member same => ?_⟩
  have here : e ∈ r'.entries := enters.mem_entries.mpr (Or.inl rfl)
  rw [(enters.valid valid).eq_of_serial member here (same.trans serial), id]

/-- A ticket whose call stays, and for which nothing is sent or taken, shows what it showed. -/
theorem Sheds.slot_stays (sheds : r.Sheds r' stays new kept) (valid : r.Valid)
    (stay : ∀ p, (t.id, p) ∈ r.entries → p.serial = t.serial → stays (t.id, p) = true)
    (silent : ∀ f ∈ new, f.1 ≠ t.serial) (keeps : ∀ ending, kept (t.serial, ending) = true) :
    r'.slot t = r.slot t := by
  have after := sheds.valid valid
  apply slot_congr
  · ext ending
    rw [endingOf?_eq_some_iff after, endingOf?_eq_some_iff valid, sheds.mem_endings]
    constructor
    · rintro (sent | ⟨old, _⟩)
      · exact absurd rfl (silent _ sent)
      · exact old
    · intro old
      exact Or.inr ⟨old, keeps ending⟩
  · rw [Bool.eq_iff_iff, owns_iff after.toShaped, owns_iff valid.toShaped]
    constructor
    · rintro ⟨p, pending, same⟩
      exact ⟨p, (sheds.mem_entries.mp pending).1, same⟩
    · rintro ⟨p, pending, same⟩
      exact ⟨p, sheds.mem_entries.mpr ⟨pending, stay p pending same⟩, same⟩

theorem Sheds.slot_sent (sheds : r.Sheds r' stays new kept) (valid : r.Valid) (sent : (t.serial, ending) ∈ new) :
    r'.slot t = .filled ending :=
  (slot_eq_filled_iff (sheds.valid valid)).mpr (sheds.mem_endings.mpr (Or.inl sent))

theorem Sheds.slot_nothing (sheds : r.Sheds r' every [] every) (valid : r.Valid) : r'.slot t = r.slot t :=
  sheds.slot_stays valid (fun _ _ _ => rfl) nofun fun _ => rfl

theorem Sheds.due?_every (sheds : r.Sheds r' every new kept) (shaped : r.Shaped) (id : String) :
    r'.due? id = r.due? id := by
  have all : (r.find? id).filter (fun p => every (id, p)) = r.find? id := filter_of_forall _ fun _ => rfl
  rw [due?, sheds.find?_eq shaped, all, due?]

/-- An entry with the serial of a ticket stands for it. -/
theorem Issued.slot_eq_empty_iff (issued : r.Issued t) (valid : r.Valid) :
    r.slot t = .empty ↔ ∃ e ∈ r.entries, e.2.serial = t.serial := by
  rw [Registry.slot_eq_empty_iff valid]
  constructor
  · rintro ⟨p, pending, same⟩
    exact ⟨_, pending, same⟩
  · rintro ⟨⟨id, p⟩, pending, same⟩
    obtain rfl : id = t.id := issued.home _ pending same
    exact ⟨p, pending, same⟩

/-- The call under an id leaves, and its caller is sent the ending. -/
theorem Sheds.slot_one (sheds : r.Sheds r' (·.1 != id) [(p.serial, ending)] every) (valid : r.Valid)
    (pending : (id, p) ∈ r.entries) (issued : r.Issued t) :
    r'.slot t = if t.id = id then (r.slot t).send ending else r.slot t := by
  by_cases own : p.serial = t.serial
  · obtain rfl := issued.home _ pending own
    have empty := (issued.slot_eq_empty_iff valid).mpr ⟨_, pending, own⟩
    rw [if_pos rfl, empty]
    exact sheds.slot_sent valid (own ▸ List.mem_singleton_self _)
  · have others : ∀ q, (t.id, q) ∈ r.entries → q.serial = t.serial → t.id ≠ id := by
      intro q here serial same
      have entry := congrArg (fun e => e.2.serial) (valid.eq_of_id pending here same.symm)
      exact own (entry.trans serial)
    have same : r'.slot t = r.slot t := by
      refine sheds.slot_stays valid (fun q here serial => bne_iff_ne.mpr (others q here serial)) ?_ fun _ => rfl
      intro f sent
      rw [List.mem_singleton.mp sent]
      exact own
    rw [same]
    split
    · rename_i at_
      refine (Slot.send_of_ne_empty fun empty => ?_).symm
      obtain ⟨q, here, serial⟩ := (Registry.slot_eq_empty_iff valid).mp empty
      exact others q here serial at_
    · rfl

theorem send_absent (valid : r.Valid) (absent : ∀ p, (t.id, p) ∉ r.entries) : (r.slot t).send ending = r.slot t := by
  refine Slot.send_of_ne_empty fun empty => ?_
  obtain ⟨p, pending, _⟩ := (slot_eq_empty_iff valid).mp empty
  exact absent p pending

theorem Sheds.due?_one (sheds : r.Sheds r' (·.1 != id) new kept) (shaped : r.Shaped) (other : String) :
    r'.due? other = if other = id then none else r.due? other := by
  rw [due?, sheds.find?_eq shaped]
  split
  · rename_i same
    rw [same]
    simp
  · rename_i different
    have stays : (other != id) = true := bne_iff_ne.mpr different
    rw [filter_of_forall _ fun _ => stays]
    rfl

theorem due?_absent (shaped : r.Shaped) (absent : ∀ p, (id, p) ∉ r.entries) : r.due? id = none := by
  rw [due?, (find?_eq_none_iff shaped).mpr absent]
  rfl

/-! ### What each operation does to what is seen -/

theorem register_seen (valid : r.Valid) (now : Nat) (id : CallId) (deadline : Nat) :
    ((r.due? id.text).isSome ∧ (r.register now id deadline).1 = none ∧
        r.Sheds (r.register now id deadline).2 every [] every) ∨
      r.due? id.text = none ∧ (r.register now id deadline).1 = some ⟨id.text, r.nextSerial, deadline⟩ ∧
        r.Enters (r.register now id deadline).2 (id.text, ⟨r.nextSerial, now, deadline⟩) := by
  rcases register_cases valid.toShaped now id deadline with ⟨p, pending, refused⟩ | ⟨absent, accepted⟩
  · refine Or.inl ⟨?_, refused⟩
    rw [due?, (find?_eq_some_iff valid.toShaped).mpr pending]
    rfl
  · exact Or.inr ⟨due?_absent valid.toShaped absent, accepted⟩

theorem Enters.slot_old {e : String × PendingCall} (enters : r.Enters r' e) (valid : r.Valid) (issued : r.Issued t) :
    r'.slot t = r.slot t := by
  have after := enters.valid valid
  have fresh := enters.fresh
  have before := issued.before
  apply slot_congr
  · ext ending
    rw [endingOf?_eq_some_iff after, endingOf?_eq_some_iff valid, enters.endings]
  · rw [Bool.eq_iff_iff, owns_iff after.toShaped, owns_iff valid.toShaped]
    constructor
    · rintro ⟨p, pending, same⟩
      rcases enters.mem_entries.mp pending with rfl | old
      · have same : p.serial = t.serial := same
        have fresh : p.serial = r.nextSerial := fresh
        omega
      · exact ⟨p, old, same⟩
    · rintro ⟨p, pending, same⟩
      exact ⟨p, enters.mem_entries.mpr (Or.inr pending), same⟩

theorem Enters.slot_new {e : String × PendingCall} (enters : r.Enters r' e) (valid : r.Valid) (id : t.id = e.1)
    (serial : t.serial = e.2.serial) : r'.slot t = .empty := by
  refine (slot_eq_empty_iff (enters.valid valid)).mpr ⟨e.2, ?_, serial.symm⟩
  rw [id]
  exact enters.mem_entries.mpr (Or.inl rfl)

theorem Enters.due?_eq {e : String × PendingCall} (enters : r.Enters r' e) (shaped : r.Shaped) (id : String) :
    r'.due? id = if id = e.1 then some e.2.deadline else r.due? id := by
  rw [due?, enters.find?_eq shaped]
  split
  · rfl
  · rfl

theorem resolve_fst (r : Registry) (now : Nat) (id reply : String) :
    (r.resolve now id reply).1 = (r.due? id).isSome := by
  rw [resolve, due?]
  cases r.find? id with
  | none => rfl
  | some p => rfl

theorem cancel_fst (r : Registry) (id : String) : (r.cancel id).1 = (r.due? id).isSome := by
  rw [cancel, due?]
  cases r.find? id with
  | none => rfl
  | some p => rfl

theorem slot_resolve (valid : r.Valid) (issued : r.Issued t) (now : Nat) (id reply : String) :
    (r.resolve now id reply).2.slot t = if t.id = id then (r.slot t).send (.reply reply) else r.slot t := by
  rcases resolve_cases valid.toShaped now id reply with ⟨p, pending, _, sheds⟩ | ⟨absent, _, sheds⟩
  · exact sheds.slot_one valid pending issued
  · rw [sheds.slot_nothing valid]
    split
    · rename_i same
      exact (send_absent valid (same ▸ absent)).symm
    · rfl

theorem slot_cancel (valid : r.Valid) (issued : r.Issued t) (id : String) :
    (r.cancel id).2.slot t = if t.id = id then (r.slot t).send .cancelled else r.slot t := by
  rcases cancel_cases valid.toShaped id with ⟨p, pending, _, sheds⟩ | ⟨absent, _, same⟩
  · exact sheds.slot_one valid pending issued
  · rw [same]
    split
    · rename_i same
      exact (send_absent valid (same ▸ absent)).symm
    · rfl

theorem due?_resolve (shaped : r.Shaped) (now : Nat) (id reply other : String) :
    (r.resolve now id reply).2.due? other = if other = id then none else r.due? other := by
  rcases resolve_cases shaped now id reply with ⟨p, pending, _, sheds⟩ | ⟨absent, _, sheds⟩
  · exact sheds.due?_one shaped other
  · rw [sheds.due?_every shaped]
    split
    · rename_i same
      rw [same, due?_absent shaped absent]
    · rfl

theorem due?_cancel (shaped : r.Shaped) (id other : String) :
    (r.cancel id).2.due? other = if other = id then none else r.due? other := by
  rcases cancel_cases shaped id with ⟨p, pending, _, sheds⟩ | ⟨absent, _, same⟩
  · exact sheds.due?_one shaped other
  · rw [same]
    split
    · rename_i same
      rw [same, due?_absent shaped absent]
    · rfl

theorem mem_expired {q : PendingCall} : q ∈ r.expired now ↔ ∃ e ∈ r.entries, e.2 = q ∧ q.deadline ≤ now := by
  rw [expired_eq, List.mem_filter, List.mem_map]
  constructor
  · rintro ⟨⟨e, pending, same⟩, late⟩
    exact ⟨e, pending, same, of_decide_eq_true late⟩
  · rintro ⟨e, pending, same, late⟩
    exact ⟨⟨e, pending, same⟩, decide_eq_true late⟩

theorem slot_sweep (valid : r.Valid) (issued : r.Issued t) (now : Nat) :
    (r.sweep now).2.slot t =
      if (r.due? t.id).any (decide <| · ≤ now) then (r.slot t).send .timedOut else r.slot t := by
  have sheds := sweep_sheds valid now
  by_cases empty : r.slot t = .empty
  · obtain ⟨p, pending, own⟩ := (slot_eq_empty_iff valid).mp empty
    have due : r.due? t.id = some p.deadline := by
      rw [due?, (find?_eq_some_iff valid.toShaped).mpr pending]
      rfl
    rw [due, Option.any_some, empty]
    by_cases late : p.deadline ≤ now
    · rw [if_pos (decide_eq_true late)]
      have expired : p ∈ r.expired now := mem_expired.mpr ⟨_, pending, rfl, late⟩
      exact sheds.slot_sent valid (List.mem_map.mpr ⟨p, expired, by rw [own]⟩)
    · rw [if_neg fun no => late (of_decide_eq_true no), ← empty]
      refine sheds.slot_stays valid ?_ ?_ fun _ => rfl
      · intro q here _
        obtain rfl : p = q := congrArg Prod.snd (valid.eq_of_id pending here rfl)
        simp [early, late]
      · intro f sent same
        obtain ⟨q, expired, rfl⟩ := List.mem_map.mp sent
        obtain ⟨e, there, rfl, before⟩ := mem_expired.mp expired
        obtain rfl := valid.eq_of_serial there pending (same.trans own.symm)
        exact late before
  · have none : ∀ e ∈ r.entries, e.2.serial ≠ t.serial := by
      intro e pending same
      exact empty ((issued.slot_eq_empty_iff valid).mpr ⟨e, pending, same⟩)
    have same : (r.sweep now).2.slot t = r.slot t := by
      refine sheds.slot_stays valid (fun p pending same => absurd same (none _ pending)) ?_ fun _ => rfl
      intro f sent
      obtain ⟨q, expired, rfl⟩ := List.mem_map.mp sent
      obtain ⟨e, pending, rfl, _⟩ := mem_expired.mp expired
      exact none e pending
    rw [same, Slot.send_of_ne_empty empty, ite_self]

theorem due?_sweep (valid : r.Valid) (now : Nat) (id : String) :
    (r.sweep now).2.due? id = (r.due? id).filter (decide <| now < ·) := by
  rw [due?, (sweep_sheds valid now).find?_eq valid.toShaped, due?, Option.filter_map]
  congr 2
  funext p
  exact decide_not.symm.trans (decide_eq_decide.mpr Nat.not_le)

/-! ### Callers that look and callers that go -/

theorem await_fst (r : Registry) (t : Ticket) (until_ now : Nat) :
    (r.await t until_ now).1 = (r.slot t).told? (decide (until_ ≤ now)) := by
  unfold await slot
  cases r.endingOf? t with
  | some ending => rfl
  | none =>
    by_cases own : r.owns t = true
    · by_cases late : until_ ≤ now
      · simp [own, late, Slot.told?]
      · simp [own, late, Slot.told?]
    · by_cases late : until_ ≤ now
      · simp [own, late, Slot.told?]
      · simp [own, late, Slot.told?]

/-- A caller that has to wait on, since nothing has been sent and its time has not come, changes nothing. -/
theorem await_waits {until_ : Nat} (waits : (r.await t until_ now).1 = none) :
    r.await t until_ now = (none, r) ∧ r.endingOf? t = none ∧ now < until_ := by
  unfold await at waits ⊢
  cases left : r.endingOf? t with
  | some ending =>
    rw [left] at waits
    cases waits
  | none =>
    rw [left] at waits
    dsimp only at waits ⊢
    by_cases late : until_ ≤ now
    · rw [if_pos late] at waits
      split at waits
      · cases waits
      · cases waits
    · rw [if_neg late]
      exact ⟨rfl, rfl, Nat.lt_of_not_le late⟩

theorem await_early {until_ : Nat} (absent : r.endingOf? t = none) (early : now < until_) :
    r.await t until_ now = (none, r) := by
  rw [await, absent]
  exact if_neg (Nat.not_le_of_lt early)

theorem endingOf?_eq_none_iff : r.endingOf? t = none ↔ ∀ f ∈ r.endings, f.1 ≠ t.serial := by
  rw [endingOf?, Option.map_eq_none_iff, List.find?_eq_none]
  simp only [beq_iff_eq, ne_eq]

theorem endings_await (r : Registry) (t : Ticket) (until_ now : Nat) :
    ∀ f ∈ (r.await t until_ now).2.endings, f ∈ r.endings := by
  intro f member
  unfold await at member
  split at member
  · exact List.mem_of_mem_filter member
  · split at member
    · split at member
      · exact member
      · exact member
    · exact member

theorem Sheds.slot_other (sheds : r.Sheds r' (·.1 != t.id) [] every) (valid : r.Valid)
    (own : ∃ p, (t.id, p) ∈ r.entries ∧ p.serial = t.serial) (different : u.serial ≠ t.serial) :
    r'.slot u = r.slot u := by
  obtain ⟨p, pending, serial⟩ := own
  refine sheds.slot_stays valid ?_ nofun fun _ => rfl
  intro q here same
  refine bne_iff_ne.mpr fun at_ => different ?_
  have entry := congrArg (fun e => e.2.serial) (valid.eq_of_id here pending at_)
  exact same.symm.trans (entry.trans serial)

theorem Sheds.slot_cleared (sheds : r.Sheds r' every [] (·.1 != t.serial)) (valid : r.Valid)
    (different : u.serial ≠ t.serial) : r'.slot u = r.slot u :=
  sheds.slot_stays valid (fun _ _ _ => rfl) nofun fun _ => bne_iff_ne.mpr different

theorem slot_await (valid : r.Valid) (t : Ticket) (until_ now : Nat) (different : u.serial ≠ t.serial) :
    (r.await t until_ now).2.slot u = r.slot u := by
  rcases await_cases valid t until_ now with
    ⟨_, _, _, sheds⟩ | ⟨_, ⟨_, _, own, sheds⟩ | ⟨_, told, _⟩ | ⟨_, waits⟩⟩
  · exact sheds.slot_cleared valid different
  · exact sheds.slot_other valid own different
  · rw [told]
  · rw [waits]

theorem slot_release (valid : r.Valid) (t : Ticket) (different : u.serial ≠ t.serial) :
    (r.release t).slot u = r.slot u := by
  rcases release_cases valid t with ⟨p, pending, same, sheds⟩ | ⟨_, sheds⟩
  · exact sheds.slot_other valid ⟨p, pending, same⟩ different
  · exact sheds.slot_cleared valid different

theorem due?_await (valid : r.Valid) (t : Ticket) (until_ now : Nat) (id : String) :
    (r.await t until_ now).2.due? id =
      if id = t.id ∧ r.slot t = .empty ∧ until_ ≤ now then none else r.due? id := by
  rcases await_cases valid t until_ now with
    ⟨ending, left, _, sheds⟩ | ⟨_, ⟨late, _, own, sheds⟩ | ⟨_, told, gone⟩ | ⟨early, waits⟩⟩
  · have filled := (slot_eq_filled_iff valid).mpr left
    rw [sheds.due?_every valid.toShaped, filled, if_neg fun no => nomatch no.2.1]
  · rw [sheds.due?_one valid.toShaped]
    simp [(slot_eq_empty_iff valid).mpr own, late]
  · rw [told, if_neg fun no => gone ((slot_eq_empty_iff valid).mp no.2.1)]
  · rw [waits, if_neg fun no => by omega]

theorem due?_release (valid : r.Valid) (t : Ticket) (id : String) :
    (r.release t).due? id = if id = t.id ∧ r.slot t = .empty then none else r.due? id := by
  rcases release_cases valid t with ⟨p, pending, same, sheds⟩ | ⟨gone, sheds⟩
  · rw [sheds.due?_one valid.toShaped]
    simp [(slot_eq_empty_iff valid).mpr ⟨p, pending, same⟩]
  · rw [sheds.due?_every valid.toShaped, if_neg fun no => gone ((slot_eq_empty_iff valid).mp no.2)]

end Registry

end SoapRelay
