import SoapRelay.Proofs.Callers
import SoapRelay.Proofs.Counters

/-!
# Callers leave each other alone

What a caller does touches its own call and its own ending, and nothing else. Once its call has ended it touches the
ending alone, however often the id has been used since, and the ending that it is told is the one that ended its own
registration.
-/

namespace SoapRelay

namespace Registry

variable {r r' : Registry} {t : Ticket} {serial : Nat}

/-- Nothing changes but what is there under one serial. -/
structure Spares (r r' : Registry) (serial : Nat) : Prop where
  entries : ∀ e, e.2.serial ≠ serial → (e ∈ r'.entries ↔ e ∈ r.entries)
  slots : ∀ u, u.serial ≠ serial → r'.slot u = r.slot u

theorem Spares.refl (r : Registry) (serial : Nat) : r.Spares r serial :=
  ⟨fun _ _ => Iff.rfl, fun _ _ => rfl⟩

theorem Sheds.spares_cleared (sheds : r.Sheds r' every [] (·.1 != t.serial)) (valid : r.Valid) :
    r.Spares r' t.serial := by
  refine ⟨?_, fun u other => sheds.slot_cleared valid other⟩
  intro e _
  rw [sheds.mem_entries]
  exact and_iff_left rfl

theorem Sheds.spares_removed (sheds : r.Sheds r' (·.1 != t.id) [] every) (valid : r.Valid)
    (own : ∃ p, (t.id, p) ∈ r.entries ∧ p.serial = t.serial) : r.Spares r' t.serial := by
  refine ⟨?_, fun u other => sheds.slot_other valid own other⟩
  intro e other
  obtain ⟨p, pending, same⟩ := own
  rw [sheds.mem_entries]
  refine and_iff_left_of_imp fun member => bne_iff_ne.mpr fun here => other ?_
  rw [valid.eq_of_id member pending here]
  exact same

theorem release_spares (valid : r.Valid) (t : Ticket) : r.Spares (r.release t) t.serial := by
  rcases release_cases valid t with ⟨p, pending, same, sheds⟩ | ⟨_, sheds⟩
  · exact sheds.spares_removed valid ⟨p, pending, same⟩
  · exact sheds.spares_cleared valid

theorem await_spares (valid : r.Valid) (t : Ticket) (until_ now : Nat) :
    r.Spares (r.await t until_ now).2 t.serial := by
  rcases await_cases valid t until_ now with
    ⟨_, _, _, sheds⟩ | ⟨_, ⟨_, _, own, sheds⟩ | ⟨_, told, _⟩ | ⟨_, waits⟩⟩
  · exact sheds.spares_cleared valid
  · exact sheds.spares_removed valid own
  · rw [told]
    exact .refl r t.serial
  · rw [waits]
    exact .refl r t.serial

theorem Enters.spares {e : String × PendingCall} (enters : r.Enters r' e) (valid : r.Valid) :
    r.Spares r' e.2.serial := by
  have after := enters.valid valid
  constructor
  · intro f other
    rw [enters.mem_entries]
    apply or_iff_right
    rintro rfl
    exact other rfl
  · intro u other
    apply slot_congr
    · ext ending
      rw [endingOf?_eq_some_iff after, endingOf?_eq_some_iff valid, enters.endings]
    · rw [Bool.eq_iff_iff, owns_iff after.toShaped, owns_iff valid.toShaped]
      have same : ∀ p : PendingCall, p.serial = u.serial → ((u.id, p) ∈ r'.entries ↔ (u.id, p) ∈ r.entries) := by
        intro p own
        rw [enters.mem_entries]
        refine or_iff_right ?_
        rintro rfl
        exact other own.symm
      exact exists_congr fun p => and_congr_left fun own => same p own

theorem release_of_gone (gone : r.owns t = false) : r.release t = r.clearEnding t := by
  unfold release
  rw [gone]
  rfl

theorem await_of_left {ending : Ending} (left : r.endingOf? t = some ending) (until_ now : Nat) :
    r.await t until_ now = (some ending, r.clearEnding t) := by
  unfold await
  rw [left]

end Registry

namespace Hall

open Registry

variable {x y : Hall} {op : Op} {h : Handle} {hold : Hold} {ending : Ending} {serial : Nat}

/-- The caller under a handle starts to wait, looks, or goes away. -/
inductive Op.By (h : Handle) : Op → Prop where
  | wait (until? : Option Nat) : By h (.wait h until?)
  | look : By h (.look h)
  | drop : By h (.drop h)

/-- Nothing changes but what is under one handle and one serial. -/
structure Spares (x y : Hall) (h : Handle) (serial : Nat) : Prop where
  now : y.now = x.now
  registry : x.registry.Spares y.registry serial
  holds : ∀ k, k ≠ h → y.holds k = x.holds k

theorem Spares.refl (x : Hall) (h : Handle) (serial : Nat) : Spares x x h serial :=
  ⟨rfl, .refl _ _, fun _ _ => rfl⟩

theorem spares_of_registry {r' : Registry} (spares : x.registry.Spares r' serial) (hold? : Option Hold) :
    Spares x ((x.withRegistry r').withHold h hold?) h serial :=
  ⟨rfl, spares, fun _ other => Function.update_of_ne other _ _⟩

theorem own_spares (sound : x.Sound) (held : x.holds h = some hold) (own : op.By h) :
    Spares x (x.step op).2 h hold.ticket.serial := by
  obtain ⟨t, since?⟩ := hold
  cases own with
  | wait until? =>
    show Spares x (x.wait h until?).2 h t.serial
    unfold wait
    rw [held]
    cases since? with
    | none => exact spares_of_registry (.refl x.registry t.serial) _
    | some limit => exact .refl x h t.serial
  | look =>
    show Spares x (x.look h).2 h t.serial
    unfold look
    rw [held]
    cases since? with
    | none => exact .refl x h t.serial
    | some limit =>
      have spares := await_spares sound.valid t limit x.now
      dsimp only
      split
      · rename_i ending r' awaited
        rw [awaited] at spares
        exact spares_of_registry spares none
      · rename_i r' awaited
        rw [awaited] at spares
        exact ⟨rfl, spares, fun _ _ => rfl⟩
  | drop =>
    show Spares x (x.drop h).2 h t.serial
    unfold drop
    rw [held]
    exact spares_of_registry (release_spares sound.valid t) none

/-! ### Callers whose call has ended -/

/-- Nothing in the registry changes but that an ending may be taken away. -/
def Untouched (r r' : Registry) : Prop :=
  ∃ endings, r' = { r with endings }

/-- The registration of a caller has ended, and the caller does not know yet. -/
structure Stale (x : Hall) (h : Handle) (hold : Hold) (ending : Ending) : Prop where
  held : x.holds h = some hold
  gone : x.registry.owns hold.ticket = false
  left : x.registry.endingOf? hold.ticket = some ending

theorem stale_of_gone (sound : x.Sound) (held : x.holds h = some hold) (gone : x.registry.owns hold.ticket = false) :
    ∃ ending, x.Stale h hold ending := by
  rcases sound.served h hold held with pends | ⟨ending, left⟩
  · rw [(pends_iff sound).mpr pends] at gone
    cases gone
  · exact ⟨ending, held, gone, (endingOf?_eq_some_iff sound.valid).mpr left⟩

theorem Stale.untouched (stale : x.Stale h hold ending) (own : op.By h) :
    Untouched x.registry (x.step op).2.registry := by
  obtain ⟨t, since?⟩ := hold
  obtain ⟨held, gone, left⟩ := stale
  cases own with
  | wait until? =>
    show Untouched x.registry (x.wait h until?).2.registry
    rw [wait_acts]
    exact ⟨_, rfl⟩
  | look =>
    show Untouched x.registry (x.look h).2.registry
    unfold look
    rw [held]
    cases since? with
    | none => exact ⟨_, rfl⟩
    | some limit =>
      dsimp only
      rw [await_of_left left]
      exact ⟨_, rfl⟩
  | drop =>
    show Untouched x.registry (x.drop h).2.registry
    unfold drop
    rw [held]
    dsimp only
    rw [release_of_gone gone]
    exact ⟨_, rfl⟩

theorem Stale.told (stale : x.Stale h hold ending) {limit : Nat} (waits : hold.until? = some limit) :
    (x.step (.look h)).1 = .told ending := by
  obtain ⟨t, since?⟩ := hold
  obtain ⟨held, gone, left⟩ := stale
  obtain rfl : since? = some limit := waits
  refine look_told held ?_
  rw [← await_fst, await_of_left left]

/-- What a caller can do whose registration ended with this ending. -/
structure Harmless (x : Hall) (h : Handle) (hold : Hold) (ending : Ending) : Prop where
  spares : ∀ op, op.By h → Spares x (x.step op).2 h hold.ticket.serial
  untouched : ∀ op, op.By h → Untouched x.registry (x.step op).2.registry
  told : ∀ limit, hold.until? = some limit → (x.step (.look h)).1 = .told ending
  /-- A caller that has not started to wait is told as soon as it does. -/
  waits : ∀ until?, hold.until? = none → ((x.step (.wait h until?)).2.step (.look h)).1 = .told ending

theorem Stale.harmless (stale : x.Stale h hold ending) (sound : x.Sound) : x.Harmless h hold ending := by
  refine ⟨fun op => own_spares sound stale.held, fun op => stale.untouched, fun limit => stale.told, ?_⟩
  intro until? idle
  obtain ⟨t, since?⟩ := hold
  obtain rfl : since? = none := idle
  have waits : (x.step (.wait h until?)).2 =
      x.withHold h (some ⟨t, some (t.limit (until?.getD t.deadline))⟩) := by
    show (x.wait h until?).2 = _
    unfold wait
    rw [stale.held]
  have still : (x.step (.wait h until?)).2.Stale h ⟨t, some (t.limit (until?.getD t.deadline))⟩ ending := by
    rw [waits]
    exact ⟨Function.update_self .., stale.gone, stale.left⟩
  exact still.told rfl

theorem stale_iff (sound : x.Sound) :
    x.Stale h hold ending ↔ x.holds h = some hold ∧ x.registry.slot hold.ticket = .filled ending := by
  rw [slot_eq_filled_iff sound.valid, ← endingOf?_eq_some_iff sound.valid]
  constructor
  · intro stale
    exact ⟨stale.held, stale.left⟩
  · rintro ⟨held, left⟩
    refine ⟨held, ?_, left⟩
    rw [← Bool.not_eq_true, pends_iff sound]
    exact not_pends_of_left sound ((endingOf?_eq_some_iff sound.valid).mp left)

/-- A caller whose registration has ended, and that has neither looked nor gone away since, can do no harm at any
time after that, whatever was registered under its id meanwhile: nothing it does touches the calls and endings of
others or is counted, and if it looks it is told how its own registration ended. -/
theorem stale_caller_is_harmless (shards : Nat) (hash : String → UInt64) (ops : List Op)
    (held : ((start shards hash).after ops).holds h = some hold)
    (gone : ((start shards hash).after ops).registry.owns hold.ticket = false) :
    let x := (start shards hash).after ops
    ∃ ending, (∃ c ∈ (start shards hash).events ops, c.Ends hold.ticket ∧ c.Brings hold.ticket ending) ∧
      ∀ later, (∃ e ∈ x.events later, e.Dismisses h hold.ticket ending) ∨
        ∃ now, (x.after later).holds h = some now ∧ now.ticket = hold.ticket ∧
          (x.after later).Harmless h now ending := by
  intro x
  have sound := after_sound (start_sound shards hash) ops
  obtain ⟨ending, stale⟩ := stale_of_gone sound held gone
  obtain ⟨-, explained⟩ := left_explained shards hash ops held
  refine ⟨ending, explained ending ((endingOf?_eq_some_iff sound.valid).mp stale.left), ?_⟩
  intro later
  have good := after_sound sound later
  obtain ⟨-, filled⟩ := (stale_iff sound).mp stale
  refine (filled_of_after sound later ⟨hold, held, rfl⟩ filled).imp_right ?_
  rintro ⟨⟨now, holds, same⟩, still⟩
  rw [← same] at still
  exact ⟨now, holds, same, ((stale_iff good).mpr ⟨holds, still⟩).harmless good⟩

/-- The second call under the id is pending when the caller of the first one looks or goes away, and stays so. -/
theorem stale_caller_is_harmless_of_reuse :
    let x := (start 1 mix).after (reuse.take 4)
    x.holds ⟨again, 1⟩ = some ⟨⟨"again", 0, 9⟩, some 9⟩ ∧ x.registry.owns ⟨"again", 0, 9⟩ = false ∧
      (∃ c ∈ (start 1 mix).events (reuse.take 4), c.Ends ⟨"again", 0, 9⟩ ∧ c.Brings ⟨"again", 0, 9⟩ (.reply "one")) ∧
      (x.step (.look ⟨again, 1⟩)).1 = .told (.reply "one") ∧
      (x.step (.drop ⟨again, 1⟩)).2.registry.slot ⟨"again", 1, 9⟩ = .empty := by
  intro x
  have held : x.holds ⟨again, 1⟩ = some ⟨⟨"again", 0, 9⟩, some 9⟩ := by decide +kernel
  have gone : x.registry.owns ⟨"again", 0, 9⟩ = false := by decide +kernel
  obtain ⟨ending, caused, always⟩ := stale_caller_is_harmless 1 mix (reuse.take 4) held gone
  rcases always [] with ⟨e, none, _⟩ | ⟨now, holds, same, harmless⟩
  · cases none
  · obtain rfl := Option.some.inj (held.symm.trans holds)
    have told := harmless.told 9 rfl
    have reply : (x.step (.look ⟨again, 1⟩)).1 = .told (.reply "one") := by decide +kernel
    obtain rfl := Answer.told.inj (told.symm.trans reply)
    have spared := (harmless.spares _ .drop).registry.slots ⟨"again", 1, 9⟩ (by decide)
    exact ⟨held, gone, caused, reply, spared.trans (by decide +kernel)⟩

end Hall

end SoapRelay
