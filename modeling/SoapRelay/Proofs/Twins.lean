import Mathlib.Logic.Function.Basic
import SoapRelay.Proofs.Slot

/-!
# Registries of which the same is seen under an id

One registry holds the calls of all ids, another one those of a single id. The serials of the second
count the calls of that id only, so each of its tickets is numbered anew. Whatever is done to the first
one for another id leaves the second one its twin.
-/

namespace SoapRelay

/-- The serials of the registrations under an id, and how a run without the other ids numbers them. -/
structure Numbering where
  mine : Nat → Prop
  anew : Nat → Nat

namespace Numbering

variable {ν : Numbering} {n m k : Nat} {t : Ticket}

def ticket (ν : Numbering) (t : Ticket) : Ticket :=
  { t with serial := ν.anew t.serial }

/-- The next registration is one under the id. -/
def add (ν : Numbering) (n m : Nat) : Numbering where
  mine k := k = n ∨ ν.mine k
  anew := Function.update ν.anew n m

/-- No serial is numbered that has not been given out, and no two alike. -/
structure Fits (ν : Numbering) (n m : Nat) : Prop where
  before : ∀ k, ν.mine k → k < n ∧ ν.anew k < m
  inj : ∀ k l, ν.mine k → ν.mine l → ν.anew k = ν.anew l → k = l

theorem Fits.mono {n' m' : Nat} (fits : ν.Fits n m) (first : n ≤ n') (second : m ≤ m') : ν.Fits n' m' :=
  ⟨fun k mine => ⟨Nat.lt_of_lt_of_le (fits.before k mine).1 first, Nat.lt_of_lt_of_le (fits.before k mine).2 second⟩,
    fits.inj⟩

theorem add_anew_of_lt (early : k < n) : (ν.add n m).anew k = ν.anew k :=
  Function.update_of_ne (Nat.ne_of_lt early) ..

theorem add_anew_self (ν : Numbering) (n m : Nat) : (ν.add n m).anew n = m :=
  Function.update_self ..

theorem add_ticket_of_lt (early : t.serial < n) : (ν.add n m).ticket t = ν.ticket t := by
  rw [ticket, add_anew_of_lt early, ticket]

theorem Fits.add (fits : ν.Fits n m) : (ν.add n m).Fits (n + 1) (m + 1) := by
  have old : ∀ k, ν.mine k → k < n ∧ (ν.add n m).anew k = ν.anew k ∧ ν.anew k < m := by
    intro k mine
    obtain ⟨early, below⟩ := fits.before k mine
    exact ⟨early, add_anew_of_lt early, below⟩
  have new := add_anew_self ν n m
  constructor
  · rintro k (rfl | mine)
    · exact ⟨Nat.lt_succ_self _, by omega⟩
    · obtain ⟨early, same, below⟩ := old k mine
      omega
  · rintro k l (rfl | mine) (rfl | other) same
    · rfl
    · obtain ⟨_, _, _⟩ := old l other
      omega
    · obtain ⟨_, _, _⟩ := old k mine
      omega
    · obtain ⟨_, first, _⟩ := old k mine
      obtain ⟨_, second, _⟩ := old l other
      exact fits.inj k l mine other (by omega)

/-- A ticket for a registration under another id. -/
structure Foreign (ν : Numbering) (id : String) (n : Nat) (t : Ticket) : Prop where
  id : t.id ≠ id
  mine : ¬ν.mine t.serial
  before : t.serial < n

theorem Foreign.mono {id : String} {n' : Nat} (foreign : ν.Foreign id n t) (later : n ≤ n') : ν.Foreign id n' t :=
  ⟨foreign.id, foreign.mine, Nat.lt_of_lt_of_le foreign.before later⟩

theorem Foreign.add {id : String} (foreign : ν.Foreign id n t) : (ν.add n m).Foreign id (n + 1) t := by
  have before := foreign.before
  refine ⟨foreign.id, ?_, by omega⟩
  rintro (same | mine)
  · omega
  · exact foreign.mine mine

end Numbering

namespace Registry

variable {r r' q q' : Registry} {t : Ticket} {id : String} {ν : Numbering} {out others : List Ticket} {now until_ : Nat}

/-! ### What a registry becomes -/

/-- The tickets that a registry gave out remain its tickets. -/
structure Ages (r r' : Registry) : Prop where
  valid : r'.Valid
  serial : r.nextSerial ≤ r'.nextSerial
  issued : ∀ t, r.Issued t → r'.Issued t

theorem Ages.refl (valid : r.Valid) : r.Ages r :=
  ⟨valid, Nat.le_refl _, fun _ issued => issued⟩

theorem Ages.trans {r'' : Registry} (first : r.Ages r') (second : r'.Ages r'') : r.Ages r'' :=
  ⟨second.valid, Nat.le_trans first.serial second.serial, fun t issued => second.issued t (first.issued t issued)⟩

theorem Sheds.ages {stays : String × PendingCall → Bool} {new : List (Nat × Ending)} {kept : Nat × Ending → Bool}
    (sheds : r.Sheds r' stays new kept) (valid : r.Valid) : r.Ages r' :=
  ⟨sheds.valid valid, sheds.serial, fun _ => sheds.issued⟩

theorem Enters.ages {e : String × PendingCall} (enters : r.Enters r' e) (valid : r.Valid) : r.Ages r' :=
  ⟨enters.valid valid, enters.serial ▸ Nat.le_succ _, fun _ => enters.issued⟩

theorem register_ages (valid : r.Valid) (now : Nat) (id : CallId) (deadline : Nat) :
    r.Ages (r.register now id deadline).2 := by
  rcases register_seen valid now id deadline with ⟨_, _, sheds⟩ | ⟨_, _, enters⟩
  · exact sheds.ages valid
  · exact enters.ages valid

theorem resolve_ages (valid : r.Valid) (now : Nat) (id reply : String) : r.Ages (r.resolve now id reply).2 := by
  rcases resolve_cases valid.toShaped now id reply with ⟨_, _, _, sheds⟩ | ⟨_, _, sheds⟩
  · exact sheds.ages valid
  · exact sheds.ages valid

theorem cancel_ages (valid : r.Valid) (id : String) : r.Ages (r.cancel id).2 := by
  rcases cancel_cases valid.toShaped id with ⟨_, _, _, sheds⟩ | ⟨_, _, same⟩
  · exact sheds.ages valid
  · rw [same]
    exact .refl valid

theorem await_ages (valid : r.Valid) (t : Ticket) (until_ now : Nat) : r.Ages (r.await t until_ now).2 := by
  rcases await_cases valid t until_ now with
    ⟨_, _, _, sheds⟩ | ⟨_, ⟨_, _, _, sheds⟩ | ⟨_, told, _⟩ | ⟨_, waits⟩⟩
  · exact sheds.ages valid
  · exact sheds.ages valid
  · rw [told]
    exact .refl valid
  · rw [waits]
    exact .refl valid

theorem release_ages (valid : r.Valid) (t : Ticket) : r.Ages (r.release t) := by
  rcases release_cases valid t with ⟨_, _, _, sheds⟩ | ⟨_, sheds⟩
  · exact sheds.ages valid
  · exact sheds.ages valid

/-! ### Registries of which the same is seen under an id -/

/-- Under an id two registries show the same, and the same to the callers with some tickets. -/
structure Twins (id : String) (ν : Numbering) (out : List Ticket) (r q : Registry) : Prop where
  left : r.Valid
  right : q.Valid
  due : r.due? id = q.due? id
  fits : ν.Fits r.nextSerial q.nextSerial
  named : ∀ t ∈ out, t.id = id
  mine : ∀ t ∈ out, ν.mine t.serial
  first : ∀ t ∈ out, r.Issued t
  second : ∀ t ∈ out, q.Issued (ν.ticket t)
  slots : ∀ t ∈ out, r.slot t = q.slot (ν.ticket t)
  apart : (out.map (·.serial)).Nodup

namespace Twins

theorem both (twins : Twins id ν out r q) (part : others.Sublist out) (first : r.Ages r') (second : q.Ages q')
    (due : r'.due? id = q'.due? id) (slots : ∀ t ∈ others, r'.slot t = q'.slot (ν.ticket t)) :
    Twins id ν others r' q' where
  left := first.valid
  right := second.valid
  due
  fits := twins.fits.mono first.serial second.serial
  named t member := twins.named t (part.subset member)
  mine t member := twins.mine t (part.subset member)
  first t member := first.issued t (twins.first t (part.subset member))
  second t member := second.issued _ (twins.second t (part.subset member))
  slots
  apart := (part.map _).nodup twins.apart

theorem sublist (twins : Twins id ν out r q) (part : others.Sublist out) : Twins id ν others r q :=
  twins.both part (.refl twins.left) (.refl twins.right) twins.due fun t member => twins.slots t (part.subset member)

theorem perm (twins : Twins id ν out r q) (same : out.Perm others) : Twins id ν others r q :=
  ⟨twins.left, twins.right, twins.due, twins.fits, fun t member => twins.named t (same.mem_iff.mpr member),
    fun t member => twins.mine t (same.mem_iff.mpr member), fun t member => twins.first t (same.mem_iff.mpr member),
    fun t member => twins.second t (same.mem_iff.mpr member), fun t member => twins.slots t (same.mem_iff.mpr member),
    (same.map _).nodup_iff.mp twins.apart⟩

/-! ### What is done for another id -/

theorem aside (twins : Twins id ν out r q) (ages : r.Ages r') (due : r'.due? id = r.due? id)
    (slots : ∀ t ∈ out, r'.slot t = r.slot t) : Twins id ν out r' q :=
  twins.both (.refl _) ages (.refl twins.right) (due.trans twins.due) fun t member =>
    (slots t member).trans (twins.slots t member)

theorem register_aside (twins : Twins id ν out r q) (now : Nat) {other : CallId} (deadline : Nat)
    (foreign : other.text ≠ id) : Twins id ν out (r.register now other deadline).2 q := by
  have valid := twins.left
  have ages := register_ages valid now other deadline
  rcases register_seen valid now other deadline with ⟨_, _, sheds⟩ | ⟨_, _, enters⟩
  · exact twins.aside ages (sheds.due?_every valid.toShaped id) fun _ _ => sheds.slot_nothing valid
  · refine twins.aside ages ?_ fun t member => enters.slot_old valid (twins.first t member)
    rw [enters.due?_eq valid.toShaped, if_neg (Ne.symm foreign)]

theorem resolve_aside (twins : Twins id ν out r q) (now : Nat) {other : String} (reply : String)
    (foreign : other ≠ id) : Twins id ν out (r.resolve now other reply).2 q := by
  refine twins.aside (resolve_ages twins.left now other reply) ?_ fun t member => ?_
  · rw [due?_resolve twins.left.toShaped, if_neg (Ne.symm foreign)]
  · rw [slot_resolve twins.left (twins.first t member), twins.named t member, if_neg (Ne.symm foreign)]

theorem cancel_aside (twins : Twins id ν out r q) {other : String} (foreign : other ≠ id) :
    Twins id ν out (r.cancel other).2 q := by
  refine twins.aside (cancel_ages twins.left other) ?_ fun t member => ?_
  · rw [due?_cancel twins.left.toShaped, if_neg (Ne.symm foreign)]
  · rw [slot_cancel twins.left (twins.first t member), twins.named t member, if_neg (Ne.symm foreign)]

theorem ne_foreign (twins : Twins id ν out r q) {n : Nat} (foreign : ν.Foreign id n t) {u : Ticket} (member : u ∈ out) :
    u.serial ≠ t.serial :=
  fun same => foreign.mine (same ▸ twins.mine u member)

theorem await_aside (twins : Twins id ν out r q) {n : Nat} (foreign : ν.Foreign id n t) (until_ now : Nat) :
    Twins id ν out (r.await t until_ now).2 q := by
  refine twins.aside (await_ages twins.left t until_ now) ?_ fun u member => ?_
  · rw [due?_await twins.left, if_neg fun no => foreign.id no.1.symm]
  · exact slot_await twins.left t until_ now (twins.ne_foreign foreign member)

theorem release_aside (twins : Twins id ν out r q) {n : Nat} (foreign : ν.Foreign id n t) :
    Twins id ν out (r.release t) q := by
  refine twins.aside (release_ages twins.left t) ?_ fun u member => ?_
  · rw [due?_release twins.left, if_neg fun no => foreign.id no.1.symm]
  · exact slot_release twins.left t (twins.ne_foreign foreign member)

/-! ### What is done for the id -/

theorem resolve (twins : Twins id ν out r q) (now : Nat) (reply : String) :
    (r.resolve now id reply).1 = (q.resolve now id reply).1 ∧
      Twins id ν out (r.resolve now id reply).2 (q.resolve now id reply).2 := by
  refine ⟨by rw [resolve_fst, resolve_fst, twins.due], ?_⟩
  refine twins.both (.refl _) (resolve_ages twins.left now id reply) (resolve_ages twins.right now id reply) ?_ ?_
  · rw [due?_resolve twins.left.toShaped, due?_resolve twins.right.toShaped, twins.due]
  · intro t member
    rw [slot_resolve twins.left (twins.first t member), slot_resolve twins.right (twins.second t member),
      twins.slots t member]
    rfl

theorem cancel (twins : Twins id ν out r q) :
    (r.cancel id).1 = (q.cancel id).1 ∧ Twins id ν out (r.cancel id).2 (q.cancel id).2 := by
  refine ⟨by rw [cancel_fst, cancel_fst, twins.due], ?_⟩
  refine twins.both (.refl _) (cancel_ages twins.left id) (cancel_ages twins.right id) ?_ ?_
  · rw [due?_cancel twins.left.toShaped, due?_cancel twins.right.toShaped, twins.due]
  · intro t member
    rw [slot_cancel twins.left (twins.first t member), slot_cancel twins.right (twins.second t member),
      twins.slots t member]
    rfl

theorem sweep (twins : Twins id ν out r q) (now : Nat) : Twins id ν out (r.sweep now).2 (q.sweep now).2 := by
  have left := twins.left
  have right := twins.right
  refine twins.both (.refl _) ((sweep_sheds left now).ages left) ((sweep_sheds right now).ages right) ?_ ?_
  · rw [due?_sweep left, due?_sweep right, twins.due]
  · intro t member
    have named : (ν.ticket t).id = t.id := rfl
    rw [slot_sweep left (twins.first t member), slot_sweep right (twins.second t member), twins.slots t member, named,
      twins.named t member, twins.due]

theorem ne_head (twins : Twins id ν (t :: out) r q) {u : Ticket} (member : u ∈ out) :
    u.serial ≠ t.serial ∧ (ν.ticket u).serial ≠ (ν.ticket t).serial := by
  obtain ⟨new, _⟩ := List.nodup_cons.mp twins.apart
  have different : u.serial ≠ t.serial := fun same => new (List.mem_map.mpr ⟨u, member, same⟩)
  refine ⟨different, fun same => different ?_⟩
  exact twins.fits.inj _ _ (twins.mine u (List.mem_cons_of_mem _ member)) (twins.mine t List.mem_cons_self) same

theorem await (twins : Twins id ν (t :: out) r q) (until_ now : Nat) :
    (r.await t until_ now).1 = (q.await (ν.ticket t) until_ now).1 ∧
      Twins id ν out (r.await t until_ now).2 (q.await (ν.ticket t) until_ now).2 := by
  have slot := twins.slots t List.mem_cons_self
  refine ⟨by rw [await_fst, await_fst, slot], ?_⟩
  have left := await_ages twins.left t until_ now
  have right := await_ages twins.right (ν.ticket t) until_ now
  refine twins.both (List.sublist_cons_self t out) left right ?_ fun u member => ?_
  · have named : (ν.ticket t).id = t.id := rfl
    rw [due?_await twins.left, due?_await twins.right, slot, twins.due, named]
  · obtain ⟨first, second⟩ := twins.ne_head member
    rw [slot_await twins.left t until_ now first, slot_await twins.right (ν.ticket t) until_ now second]
    exact twins.slots u (List.mem_cons_of_mem t member)

theorem release (twins : Twins id ν (t :: out) r q) : Twins id ν out (r.release t) (q.release (ν.ticket t)) := by
  refine twins.both (List.sublist_cons_self t out) (release_ages twins.left t) (release_ages twins.right _)
    ?_ fun u member => ?_
  · have named : (ν.ticket t).id = t.id := rfl
    rw [due?_release twins.left, due?_release twins.right, twins.slots t List.mem_cons_self, twins.due, named]
  · obtain ⟨first, second⟩ := twins.ne_head member
    rw [slot_release twins.left t first, slot_release twins.right (ν.ticket t) second]
    exact twins.slots u (List.mem_cons_of_mem t member)

theorem enters (twins : Twins id ν out r q) {created deadline : Nat}
    (first : r.Enters r' (id, ⟨r.nextSerial, created, deadline⟩))
    (second : q.Enters q' (id, ⟨q.nextSerial, created, deadline⟩)) :
    Twins id (ν.add r.nextSerial q.nextSerial) (⟨id, r.nextSerial, deadline⟩ :: out) r' q' := by
  have left := twins.left
  have right := twins.right
  have new : (ν.add r.nextSerial q.nextSerial).ticket ⟨id, r.nextSerial, deadline⟩ =
      ⟨id, q.nextSerial, deadline⟩ := by
    rw [Numbering.ticket, Numbering.add_anew_self]
  have early : ∀ t ∈ out, t.serial < r.nextSerial := fun t member => (twins.first t member).before
  have old : ∀ t ∈ out, (ν.add r.nextSerial q.nextSerial).ticket t = ν.ticket t := fun t member =>
    Numbering.add_ticket_of_lt (early t member)
  refine ⟨first.valid left, second.valid right, ?_, ?_, ?_, ?_, ?_, ?_, ?_, ?_⟩
  · rw [first.due?_eq left.toShaped, second.due?_eq right.toShaped, twins.due]
  · rw [first.serial, second.serial]
    exact twins.fits.add
  · exact List.forall_mem_cons.mpr ⟨rfl, twins.named⟩
  · exact List.forall_mem_cons.mpr ⟨Or.inl rfl, fun t member => Or.inr (twins.mine t member)⟩
  · exact List.forall_mem_cons.mpr ⟨first.issued_new left rfl rfl, fun t member => first.issued (twins.first t member)⟩
  · refine List.forall_mem_cons.mpr ⟨?_, fun t member => ?_⟩
    · rw [new]
      exact second.issued_new right rfl rfl
    · rw [old t member]
      exact second.issued (twins.second t member)
  · refine List.forall_mem_cons.mpr ⟨?_, fun t member => ?_⟩
    · rw [new, first.slot_new left rfl rfl, second.slot_new right rfl rfl]
    · rw [old t member, first.slot_old left (twins.first t member), second.slot_old right (twins.second t member)]
      exact twins.slots t member
  · refine List.nodup_cons.mpr ⟨fun member => ?_, twins.apart⟩
    obtain ⟨t, inside, same⟩ := List.mem_map.mp member
    exact Nat.ne_of_lt (early t inside) same

/-- A registration is refused by both registries, or both give out a ticket for it. -/
theorem register (twins : Twins id ν out r q) (now : Nat) {own : CallId} (deadline : Nat) (same : own.text = id) :
    ((r.register now own deadline).1 = none ∧ (q.register now own deadline).1 = none ∧
        Twins id ν out (r.register now own deadline).2 (q.register now own deadline).2) ∨
      (r.register now own deadline).1 = some ⟨id, r.nextSerial, deadline⟩ ∧
        (q.register now own deadline).1 = some ⟨id, q.nextSerial, deadline⟩ ∧
        (r.register now own deadline).2.nextSerial = r.nextSerial + 1 ∧
        Twins id (ν.add r.nextSerial q.nextSerial) (⟨id, r.nextSerial, deadline⟩ :: out)
          (r.register now own deadline).2 (q.register now own deadline).2 := by
  subst same
  have due := twins.due
  rcases register_seen twins.left now own deadline with ⟨found, refused, first⟩ | ⟨missing, accepted, first⟩
  · rcases register_seen twins.right now own deadline with ⟨_, too, second⟩ | ⟨none, _⟩
    · refine Or.inl ⟨refused, too, ?_⟩
      refine twins.both (.refl _) (first.ages twins.left) (second.ages twins.right) ?_ fun t member => ?_
      · rw [first.due?_every twins.left.toShaped, second.due?_every twins.right.toShaped, due]
      · rw [first.slot_nothing twins.left, second.slot_nothing twins.right, twins.slots t member]
    · rw [due, none] at found
      cases found
  · rcases register_seen twins.right now own deadline with ⟨found, _⟩ | ⟨_, too, second⟩
    · rw [← due, missing] at found
      cases found
    · exact Or.inr ⟨accepted, too, first.serial, twins.enters first second⟩

end Twins

end Registry

end SoapRelay
