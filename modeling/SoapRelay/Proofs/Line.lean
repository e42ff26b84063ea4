import SoapRelay.Proofs.Outcome
import SoapRelay.Proofs.Slot

/-!
# What can be seen under one id

Under an id nothing is seen of a hall but the time, when the call that is pending under it is due, and
its own callers with what their slots hold. Operations on other ids leave all that alone, and what an
operation on the id makes of it and is answered follows from it, whatever else goes on in the hall.
-/

namespace SoapRelay

/-- A caller as it sees itself. -/
structure Caller where
  deadline : Nat
  until? : Option Nat
  slot : Slot
  deriving DecidableEq

@[ext]
structure Line where
  now : Nat
  due? : Option Nat
  callers : Handle → Option Caller

namespace Line

def withCaller (l : Line) (h : Handle) (caller? : Option Caller) : Line :=
  { l with callers := Function.update l.callers h caller? }

/-- The call that is pending ends, and the caller that waits for it is sent the ending. -/
def send (l : Line) (ending : Ending) : Line where
  now := l.now
  due? := none
  callers h := (l.callers h).map fun c => { c with slot := c.slot.send ending }

/-- A caller goes away, with its call if that is pending. -/
def leave (l : Line) (h : Handle) (slot : Slot) : Line :=
  { l with due? := if slot = Slot.empty then none else l.due? }.withCaller h none

def register (l : Line) (h : Handle) (deadline : Nat) : Hall.Answer × Line :=
  match l.callers h with
  | some _ => (.taken, l)
  | none =>
    if l.due?.isSome then (.duplicate, l)
    else
      (.registered ⟨h.id.text, 0, deadline⟩,
        { l with due? := some deadline }.withCaller h (some ⟨deadline, none, .empty⟩))

def wait (l : Line) (h : Handle) (until? : Option Nat) : Hall.Answer × Line :=
  match l.callers h with
  | some ⟨deadline, none, slot⟩ =>
    (.waiting, l.withCaller h (some ⟨deadline, some (min (until?.getD deadline) deadline), slot⟩))
  | _ => (.unknown, l)

def look (l : Line) (h : Handle) : Hall.Answer × Line :=
  match l.callers h with
  | some ⟨_, some limit, slot⟩ =>
    match slot.told? (decide (limit ≤ l.now)) with
    | some ending => (.told ending, l.leave h slot)
    | none => (.waiting, l)
  | _ => (.unknown, l)

def drop (l : Line) (h : Handle) : Hall.Answer × Line :=
  match l.callers h with
  | some c => (.none, l.leave h c.slot)
  | none => (.unknown, l)

/-- How many calls of other ids a sweep ends is not seen. -/
def step (l : Line) : Hall.Op → Hall.Answer × Line
  | .register h deadline => l.register h deadline
  | .wait h until? => l.wait h until?
  | .look h => l.look h
  | .drop h => l.drop h
  | .resolve _ reply => (.flag l.due?.isSome, l.send (.reply reply))
  | .cancel _ => (.flag l.due?.isSome, l.send .cancelled)
  | .sweep => (.none, if l.due?.any (decide <| · ≤ l.now) then l.send .timedOut else l)
  | .pass time => (.none, { l with now := l.now + time })

end Line

def Registry.caller (r : Registry) (hold : Hold) : Caller :=
  ⟨hold.ticket.deadline, hold.until?, r.slot hold.ticket⟩

namespace Hall

open Registry

variable {x y : Hall} {op : Op} {h : Handle} {hold : Hold} {hold? : Option Hold} {id : String} {r' : Registry}

def line (x : Hall) (id : String) : Line where
  now := x.now
  due? := x.registry.due? id
  callers h := if h.id.text = id then (x.holds h).map x.registry.caller else none

/-- The id that an operation is on. -/
def Op.id? : Op → Option String
  | .register h _ | .wait h _ | .look h | .drop h => some h.id.text
  | .resolve id _ | .cancel id => some id
  | .sweep | .pass _ => none

/-- An operation on an id, or on none: a sweep, or time that passes. -/
def Op.concerns (id : String) (op : Op) : Bool :=
  op.id?.all (· == id)

/-- What an answer says under one id. Serials are counted over all ids, and a sweep counts the calls of
all ids that it ends. -/
def Answer.seen : Answer → Answer
  | .registered t => .registered { t with serial := 0 }
  | .count _ => .none
  | answer => answer

/-- What is seen under an id of an operation. -/
def seen (id : String) (result : Answer × Hall) : Answer × Line :=
  (result.1.seen, result.2.line id)

theorem Sound.ticket_issued (sound : x.Sound) (held : x.holds h = some hold) : x.registry.Issued hold.ticket :=
  ⟨sound.issued h hold held, fun _ member same => entry_of_hold sound held member same⟩

/-! ### Operations on other ids -/

theorem line_ext (now : y.now = x.now) (due : y.registry.due? id = x.registry.due? id)
    (holds : ∀ h, h.id.text = id → y.holds h = x.holds h)
    (slots : ∀ h hold, x.holds h = some hold → h.id.text = id →
      y.registry.slot hold.ticket = x.registry.slot hold.ticket) : y.line id = x.line id := by
  apply Line.ext
  · exact now
  · exact due
  · funext h
    show ite _ _ _ = ite _ _ _
    split
    · rename_i own
      rw [holds h own]
      cases held : x.holds h with
      | none => rfl
      | some hold => rw [Option.map_some, Option.map_some, caller, caller, slots h hold held own]
    · rfl

theorem line_withHold_foreign (foreign : h.id.text ≠ id) (due : r'.due? id = x.registry.due? id)
    (slots : ∀ k other, x.holds k = some other → k.id.text = id →
      r'.slot other.ticket = x.registry.slot other.ticket) :
    ((x.withRegistry r').withHold h hold?).line id = x.line id := by
  refine line_ext rfl due ?_ slots
  rintro k own
  have different : k ≠ h := fun same => foreign (same ▸ own)
  exact Function.update_of_ne different ..

theorem line_ends_foreign (sound : x.Sound) {other : String} {p : PendingCall} {ending : Ending}
    (pending : (other, p) ∈ x.registry.entries)
    (sheds : x.registry.Sheds r' (·.1 != other) [(p.serial, ending)] every) (foreign : id ≠ other) :
    (x.withRegistry r').line id = x.line id := by
  refine line_ext rfl ?_ (fun _ _ => rfl) fun h hold held own => ?_
  · exact (sheds.due?_one sound.valid.toShaped id).trans (if_neg foreign)
  · have slot := sheds.slot_one sound.valid pending (sound.ticket_issued held)
    rw [sound.named h hold held, own, if_neg foreign] at slot
    exact slot

theorem line_foreign (sound : x.Sound) (foreign : op.concerns id = false) : (x.step op).2.line id = x.line id := by
  have valid := sound.valid
  have shaped := valid.toShaped
  have named : ∀ {k : Handle}, (some k.id.text).all (· == id) = false → k.id.text ≠ id := by
    intro k other
    simpa using other
  -- The tickets of the id have other serials than a ticket with another id.
  have apart : ∀ {h : Handle} {gone : Hold}, x.holds h = some gone → h.id.text ≠ id → ∀ k other,
      x.holds k = some other → k.id.text = id → other.ticket.serial ≠ gone.ticket.serial := by
    intro h gone held other k hold there own same
    exact other (sound.own k h hold gone there held same ▸ own)
  have change := step_change sound op
  generalize (x.step op).1 = answer at change
  generalize (x.step op).2 = y at change
  cases change with
  | @registers h deadline ticket r' free issued enters =>
    have other := named foreign
    refine line_withHold_foreign other ?_ fun k hold held _ => enters.slot_old valid (sound.ticket_issued held)
    rw [enters.due?_eq shaped, issued]
    exact if_neg (Ne.symm other)
  | nothing _ _ sheds =>
    exact line_ext rfl (sheds.due?_every shaped id) (fun _ _ => rfl) fun _ _ _ _ => sheds.slot_nothing valid
  | passes => cases foreign
  | @waits h until? ticket limit held =>
    exact line_withHold_foreign (x := x) (named foreign) rfl fun _ _ _ _ => rfl
  | @finds h ticket limit ending r' held left sheds =>
    have other := named foreign
    refine line_withHold_foreign other (sheds.due?_every shaped id) fun k hold there own => ?_
    exact sheds.slot_cleared valid (apart held other k hold there own)
  | @elapses h ticket limit r' held due pends sheds =>
    have other := named foreign
    refine line_withHold_foreign other ?_ fun k hold there own => ?_
    · rw [sheds.due?_one shaped, sound.named h _ held, if_neg (Ne.symm other)]
    · exact sheds.slot_other valid pends (apart held other k hold there own)
  | @leaves h hold r' held pends sheds =>
    have other := named foreign
    refine line_withHold_foreign other ?_ fun k hold there own => ?_
    · rw [sheds.due?_one shaped, sound.named h _ held, if_neg (Ne.symm other)]
    · exact sheds.slot_other valid pends (apart held other k hold there own)
  | @forgets h hold r' held gone sheds =>
    have other := named foreign
    refine line_withHold_foreign other (sheds.due?_every shaped id) fun k hold there own => ?_
    exact sheds.slot_cleared valid (apart held other k hold there own)
  | @resolves other reply p r' pending sheds =>
    exact line_ends_foreign sound pending sheds fun same => by simp [Op.concerns, Op.id?, same] at foreign
  | @cancels other p r' pending sheds =>
    exact line_ends_foreign sound pending sheds fun same => by simp [Op.concerns, Op.id?, same] at foreign
  | sweeps => cases foreign

/-! ### Operations on the id -/

/-- A caller with the id comes, goes or changes, and the others see nothing of it. -/
theorem line_withHold (own : h.id.text = id)
    (slots : ∀ k other, k ≠ h → x.holds k = some other → r'.slot other.ticket = x.registry.slot other.ticket) :
    ((x.withRegistry r').withHold h hold?).line id =
      { x.line id with due? := r'.due? id }.withCaller h (hold?.map r'.caller) := by
  apply Line.ext
  · rfl
  · rfl
  · funext k
    show ite _ (Option.map r'.caller (Function.update x.holds h hold? k)) _ =
      Function.update (x.line id).callers h (hold?.map r'.caller) k
    by_cases same : k = h
    · subst same
      rw [if_pos own, Function.update_self, Function.update_self]
    · rw [Function.update_of_ne same, Function.update_of_ne same]
      show ite _ _ _ = ite _ _ _
      split
      · cases held : x.holds k with
        | none => rfl
        | some other => rw [Option.map_some, Option.map_some, caller, caller, slots k other same held]
      · rfl

theorem line_callers (x : Hall) (h : Handle) :
    (x.line h.id.text).callers h = (x.holds h).map x.registry.caller :=
  if_pos rfl

theorem seen_register (sound : x.Sound) (h : Handle) (deadline : Nat) :
    seen h.id.text (x.register h deadline) = (x.line h.id.text).register h deadline := by
  have valid := sound.valid
  rw [Line.register, line_callers, register]
  cases free : x.holds h with
  | some hold => rfl
  | none =>
    rcases register_seen valid x.now h.id deadline with ⟨found, refused, sheds⟩ | ⟨missing, accepted, enters⟩
    · have same : (x.withRegistry (x.registry.register x.now h.id deadline).2).line h.id.text = x.line h.id.text :=
        line_ext rfl (sheds.due?_every valid.toShaped _) (fun _ _ => rfl) fun _ _ _ _ => sheds.slot_nothing valid
      have found : (x.line h.id.text).due?.isSome := found
      rw [← Prod.eta (x.registry.register x.now h.id deadline), refused]
      dsimp only [Option.map_none]
      rw [if_pos found, seen, same]
      rfl
    · have missing : (x.line h.id.text).due? = none := missing
      have empty := enters.slot_new valid (t := ⟨h.id.text, x.registry.nextSerial, deadline⟩) rfl rfl
      have slots : ∀ k other, k ≠ h → x.holds k = some other → _ = x.registry.slot other.ticket :=
        fun k other _ held => enters.slot_old valid (sound.ticket_issued held)
      rw [← Prod.eta (x.registry.register x.now h.id deadline), accepted]
      dsimp only [Option.map_none]
      rw [missing, seen, line_withHold rfl slots, enters.due?_eq valid.toShaped, if_pos rfl, Option.map_some, caller,
        empty]
      rfl

theorem seen_wait (x : Hall) (h : Handle) (until? : Option Nat) :
    seen h.id.text (x.wait h until?) = (x.line h.id.text).wait h until? := by
  rw [Line.wait, line_callers, wait]
  cases held : x.holds h with
  | none => rfl
  | some hold =>
    obtain ⟨ticket, until?⟩ := hold
    cases until? with
    | some limit => rfl
    | none => exact congrArg (Prod.mk Answer.waiting) (line_withHold (x := x) rfl fun _ _ _ _ => rfl)

theorem line_leave (sound : x.Sound) (held : x.holds h = some hold)
    (slots : ∀ u : Ticket, u.serial ≠ hold.ticket.serial → r'.slot u = x.registry.slot u)
    (due : r'.due? h.id.text =
      if x.registry.slot hold.ticket = .empty then none else x.registry.due? h.id.text) :
    ((x.withRegistry r').withHold h none).line h.id.text =
      (x.line h.id.text).leave h (x.registry.slot hold.ticket) := by
  rw [line_withHold rfl, due]
  · rfl
  · intro k other different there
    exact slots other.ticket fun same => different (sound.own k h other hold there held same)

theorem seen_look_waiting (sound : x.Sound) {t : Ticket} {limit : Nat} (held : x.holds h = some ⟨t, some limit⟩) :
    seen h.id.text (x.look h) = (x.line h.id.text).look h := by
  have own := sound.named h _ held
  have told := await_fst x.registry t limit x.now
  have now : (x.line h.id.text).now = x.now := rfl
  rw [Line.look, line_callers, look, held, Option.map_some, caller]
  dsimp only
  rw [now, ← told]
  cases answer : (x.registry.await t limit x.now).1 with
  | none =>
    rw [(await_waits answer).1]
    rfl
  | some ending =>
    rw [← Prod.eta (x.registry.await t limit x.now), answer]
    refine congrArg (Prod.mk (Answer.told ending)) (line_leave sound held ?_ ?_)
    · exact fun u => slot_await sound.valid t limit x.now
    · have late : x.registry.slot t = .empty → limit ≤ x.now := by
        intro empty
        rw [answer, empty] at told
        by_contra early
        rw [decide_eq_false early] at told
        cases told
      rw [due?_await sound.valid, own]
      split
      · rename_i empty
        exact (if_pos empty.2.1).symm
      · rename_i others
        exact (if_neg fun empty => others ⟨rfl, empty, late empty⟩).symm

theorem seen_look (sound : x.Sound) (h : Handle) : seen h.id.text (x.look h) = (x.line h.id.text).look h := by
  cases held : x.holds h with
  | none =>
    rw [Line.look, line_callers, look, held]
    rfl
  | some hold =>
    obtain ⟨ticket, until?⟩ := hold
    cases until? with
    | some limit => exact seen_look_waiting sound held
    | none =>
      rw [Line.look, line_callers, look, held]
      rfl

theorem seen_drop (sound : x.Sound) (h : Handle) : seen h.id.text (x.drop h) = (x.line h.id.text).drop h := by
  rw [Line.drop, line_callers, drop]
  cases held : x.holds h with
  | none => rfl
  | some hold =>
    have due := due?_release sound.valid hold.ticket h.id.text
    simp only [sound.named h hold held, true_and] at due
    exact congrArg (Prod.mk Answer.none)
      (line_leave sound held (fun u => slot_release sound.valid hold.ticket) due)

theorem line_send {ending : Ending} (sound : x.Sound) (due : r'.due? id = none)
    (slots : ∀ t, x.registry.Issued t → t.id = id → r'.slot t = (x.registry.slot t).send ending) :
    (x.withRegistry r').line id = (x.line id).send ending := by
  apply Line.ext
  · rfl
  · exact due
  · funext h
    show ite _ _ _ = Option.map _ (ite _ _ _)
    split
    · rename_i own
      show (x.holds h).map r'.caller = _
      cases held : x.holds h with
      | none => rfl
      | some hold =>
        have slot := slots hold.ticket (sound.ticket_issued held) ((sound.named h hold held).trans own)
        rw [Option.map_some, Option.map_some, Option.map_some, caller, caller, slot]
    · rfl

theorem seen_resolve (sound : x.Sound) (id reply : String) :
    seen id (x.step (.resolve id reply)) = (x.line id).step (.resolve id reply) := by
  have answer := congrArg Answer.flag (resolve_fst x.registry x.now id reply)
  have after : (x.withRegistry (x.registry.resolve x.now id reply).2).line id = (x.line id).send (.reply reply) := by
    refine line_send sound ?_ fun t issued own => ?_
    · rw [due?_resolve sound.valid.toShaped, if_pos rfl]
    · rw [slot_resolve sound.valid issued, if_pos own]
  exact Prod.ext answer after

theorem seen_cancel (sound : x.Sound) (id : String) :
    seen id (x.step (.cancel id)) = (x.line id).step (.cancel id) := by
  have answer := congrArg Answer.flag (cancel_fst x.registry id)
  have after : (x.withRegistry (x.registry.cancel id).2).line id = (x.line id).send .cancelled := by
    refine line_send sound ?_ fun t issued own => ?_
    · rw [due?_cancel sound.valid.toShaped, if_pos rfl]
    · rw [slot_cancel sound.valid issued, if_pos own]
  exact Prod.ext answer after

theorem line_sweep (sound : x.Sound) (id : String) : (x.withRegistry (x.registry.sweep x.now).2).line id =
    if (x.registry.due? id).any (decide <| · ≤ x.now) then (x.line id).send .timedOut else x.line id := by
  have due := due?_sweep sound.valid x.now id
  have slots := fun t issued => slot_sweep (t := t) sound.valid issued x.now
  generalize (x.registry.sweep x.now).2 = r' at due slots
  split
  · rename_i late
    refine line_send sound ?_ fun t issued own => ?_
    · rw [due]
      cases pending : x.registry.due? id with
      | none => rfl
      | some deadline =>
        rw [pending] at late
        simpa using late
    · rw [slots t issued, own, if_pos late]
  · rename_i early
    refine line_ext rfl ?_ (fun _ _ => rfl) fun h hold held own => ?_
    · refine due.trans ?_
      cases pending : x.registry.due? id with
      | none => rfl
      | some deadline =>
        rw [pending] at early
        simpa using early
    · have slot := slots hold.ticket (sound.ticket_issued held)
      rw [sound.named h hold held, own, if_neg early] at slot
      exact slot

/-- What an operation on the id makes of what is seen under it does not depend on anything else. -/
theorem seen_step (sound : x.Sound) (own : op.concerns id = true) : seen id (x.step op) = (x.line id).step op := by
  have named : ∀ {other : String}, (some other).all (· == id) = true → other = id := fun same => by simpa using same
  cases op with
  | register h deadline => exact named own ▸ seen_register sound h deadline
  | wait h until? => exact named own ▸ seen_wait x h until?
  | look h => exact named own ▸ seen_look sound h
  | drop h => exact named own ▸ seen_drop sound h
  | resolve other reply => exact named own ▸ seen_resolve sound other reply
  | cancel other => exact named own ▸ seen_cancel sound other
  | sweep => exact congrArg (Prod.mk Answer.none) (line_sweep sound id)
  | pass time => rfl

/-! ### Runs -/

def Event.concerns (id : String) (e : Event) : Bool :=
  e.op.concerns id

/-- What is seen of an event under an id. -/
def Event.under (id : String) (e : Event) : Op × Nat × Answer × Bool :=
  (e.op, e.before.now, e.answer.seen, e.after.registry.contains id)

theorem line_contains (x : Hall) (id : String) : x.registry.contains id = (x.line id).due?.isSome :=
  (isSome_due? x.registry id).symm

theorem event_under (sound : x.Sound) (concerns : op.concerns id = true) : (x.event op).under id =
    (op, (x.line id).now, ((x.line id).step op).1, ((x.line id).step op).2.due?.isSome) := by
  rw [← seen_step sound concerns]
  show (op, x.now, _, (x.step op).2.registry.contains id) = _
  rw [line_contains]
  rfl

/-- Two halls of which the same is seen under an id, one of which has operations on other ids too. -/
theorem run_under (first : x.Sound) (second : y.Sound) (same : x.line id = y.line id) (ops : List Op) :
    ((x.events ops).filter (Event.concerns id)).map (Event.under id) =
        (y.events (ops.filter (Op.concerns id))).map (Event.under id) ∧
      (x.after ops).line id = (y.after (ops.filter (Op.concerns id))).line id := by
  -- The second hall stays where it is while the first one has operations on other ids.
  induction ops generalizing x y with
  | nil => exact ⟨rfl, same⟩
  | cons op ops ih =>
    have own : (x.event op).concerns id = op.concerns id := rfl
    cases concerns : op.concerns id with
    | true =>
      rw [concerns] at own
      have both := (seen_step first concerns).trans ((congrArg (·.step op) same).trans (seen_step second concerns).symm)
      obtain ⟨rest, final⟩ := ih (step_sound first op) (step_sound second op) (congrArg Prod.snd both)
      rw [List.filter_cons_of_pos concerns, events, events, List.filter_cons_of_pos own, List.map_cons, List.map_cons,
        event_under first concerns, event_under second concerns, same, rest]
      exact ⟨rfl, final⟩
    | false =>
      rw [concerns] at own
      have still := (line_foreign first concerns).trans same
      obtain ⟨rest, final⟩ := ih (step_sound first op) second still
      rw [List.filter_cons_of_neg (Bool.eq_false_iff.mp concerns), events,
        List.filter_cons_of_neg (Bool.eq_false_iff.mp own)]
      exact ⟨rest, final⟩

end Hall

end SoapRelay
