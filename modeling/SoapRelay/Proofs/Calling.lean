import SoapRelay.Calling
import SoapRelay.Proofs.Forward

/-!
# A call is a run of a hall

What an act of a call does at its registry is at most one operation of a hall. So a call among others is a run of a
hall, and what holds of every run holds of it.
-/

namespace SoapRelay

def ForwardError.unregistered : ForwardError → Bool
  | .sign _ => true
  | .duplicate _ => true
  | .deadlineOutOfRange => true
  | _ => false

namespace Client

variable {c : Client} {s : Scene Traffic} {id : CallId} {request : ForwardRequest}

/-- The deadline that a call is registered with, if it comes to that. -/
def deadline? (c : Client) (now : Nat) (id : CallId) (request : ForwardRequest) : Option Nat :=
  (c.signer.sign? (Client.request id request)).bind fun signed =>
    Clock.after? now (c.deadlines.waitFor signed.context signed.payload)

/-- What placing a call comes to at the registry, by the deadline that it would have. -/
inductive Applies (s : Scene Traffic) (id : CallId) : Option Nat → Scene Traffic × Except ForwardError Placed → Prop where
  | failed {s' e} (now : s'.now = s.now) (registry : s'.env.desk.registry = s.env.desk.registry)
      (early : e.unregistered = true) : Applies s id none (s', .error e)
  | refused {deadline s'} (now : s'.now = s.now)
      (registry : s'.env.desk.registry = (s.env.desk.registry.register s.now id deadline).2)
      (none : (s.env.desk.registry.register s.now id deadline).1 = none) :
      Applies s id (some deadline) (s', .error (.duplicate id))
  | placed {deadline s' p} (now : s'.now = s.now)
      (registry : s'.env.desk.registry = (s.env.desk.registry.register s.now id deadline).2)
      (given : (s.env.desk.registry.register s.now id deadline).1 = some p.ticket) :
      Applies s id (some deadline) (s', .ok p)

theorem place_applies (c : Client) (s : Scene Traffic) (id : CallId) (request : ForwardRequest) :
    Applies s id (c.deadline? s.now id request) (c.place s id request) := by
  unfold place deadline?
  cases signs : c.signer.sign? (Client.request id request) with
  | none => exact .failed rfl rfl rfl
  | some signed =>
    obtain rfl := (carries_of_sign? signs).id
    dsimp only [Option.bind_some]
    unfold register
    rw [show (s.withEnv (s.env.noteSigned signed)).now = s.now from rfl]
    cases Clock.after? s.now (c.deadlines.waitFor signed.context signed.payload) with
    | none => exact .failed rfl rfl rfl
    | some deadline =>
      dsimp only
      rw [show (s.withEnv (s.env.noteSigned signed)).env.desk.registry = s.env.desk.registry from rfl]
      cases registered : s.env.desk.registry.register s.now signed.id deadline with
      | mk ticket? r =>
        cases ticket? with
        | none => exact .refused rfl (by rw [registered]; rfl) (by rw [registered])
        | some ticket => exact .placed rfl (by rw [registered]; rfl) (by rw [registered])

end Client

namespace Hall

open Registry

variable {x : Hall} {op : Op} {h : Handle} {deadline serial : Nat} {t : Ticket}

theorem register_refused_of_free (free : x.holds h = none)
    (none : (x.registry.register x.now h.id deadline).1 = none) :
    x.step (.register h deadline) = (.duplicate, x.withRegistry (x.registry.register x.now h.id deadline).2) := by
  show x.register h deadline = _
  unfold register
  rw [free, ← Prod.eta (x.registry.register x.now h.id deadline), none]

theorem register_given_of_free (free : x.holds h = none)
    (given : (x.registry.register x.now h.id deadline).1 = some t) :
    x.step (.register h deadline) = (.registered t,
      (x.withRegistry (x.registry.register x.now h.id deadline).2).withHold h (some ⟨t, none⟩)) := by
  show x.register h deadline = _
  unfold register
  rw [free, ← Prod.eta (x.registry.register x.now h.id deadline), given]

theorem holds_of_foreign (x : Hall) (foreign : op.handle? ≠ some h) : (x.step op).2.holds h = x.holds h := by
  have other : ∀ {k : Handle}, some k ≠ some h → h ≠ k := fun different same => different (same ▸ rfl)
  cases op with
  | register k deadline =>
    show (x.register k deadline).2.holds h = _
    unfold register
    split
    · rfl
    · split
      · rfl
      · exact Function.update_of_ne (other foreign) _ _
  | wait k until? =>
    show (x.wait k until?).2.holds h = _
    unfold wait
    split
    · exact Function.update_of_ne (other foreign) _ _
    · rfl
  | look k =>
    show (x.look k).2.holds h = _
    unfold look
    split
    · split
      · exact Function.update_of_ne (other foreign) _ _
      · rfl
    · rfl
  | drop k =>
    show (x.drop k).2.holds h = _
    unfold drop
    split
    · exact Function.update_of_ne (other foreign) _ _
    · rfl
  | resolve id reply => rfl
  | cancel id => rfl
  | sweep => rfl
  | pass time => rfl

end Hall

namespace Calling

open Hall

variable {x : Calling} {act : Act} {acts : List Act} {t : Ticket}

/-! ### A call is made of what the client does -/

/-- With nothing in between, placing a call and publishing its request is starting it. -/
theorem publish_place (x : Calling) (called : x.stage = .called) :
    x.place.publish.scene = (x.client.forward x.scene x.own.id x.request).1 ∧
      x.place.publish.stage = match (x.client.forward x.scene x.own.id x.request).2 with
        | .ok t => .waiting t
        | .error e => .returned (.error e) := by
  obtain ⟨client, own, request, scene, holds, stage, ticket?⟩ := x
  obtain rfl : stage = .called := called
  dsimp only [place, Client.forward]
  obtain ⟨scene, _ | p⟩ := client.place scene own.id request
  · exact ⟨rfl, rfl⟩
  · dsimp only [publish, withOwn]
    obtain ⟨scene, _ | t⟩ := client.publish scene p
    · exact ⟨rfl, rfl⟩
    · exact ⟨rfl, rfl⟩

/-- A caller that looks finds what a caller finds that waits at the desk. -/
theorem registry_look {t : Ticket} (x : Calling) (waits : x.stage = .waiting t) (name : String) :
    x.look.registry = (Desk.look x.scene.now x.scene.env.desk ⟨name, t, t.limit t.deadline⟩).registry := by
  obtain ⟨client, own, request, scene, holds, stage, ticket?⟩ := x
  obtain rfl : stage = .waiting t := waits
  dsimp only [look, Desk.look, registry]
  obtain ⟨_ | ending, r⟩ := scene.env.desk.registry.await t (t.limit t.deadline) scene.now
  · rfl
  · rfl

/-! ### An act is at most one operation of a hall -/

def Stage.hold? : Stage → Option Hold
  | .publishing p => some ⟨p.ticket, none⟩
  | .waiting t => some ⟨t, some (t.limit t.deadline)⟩
  | _ => none

/-- What an act comes to at the registry. -/
def opOf? (x : Calling) (act : Act) : Option Hall.Op :=
  match act, x.stage with
  | .place, .called => (x.client.deadline? x.scene.now x.own.id x.request).map (.register x.own)
  | .publish, .publishing p =>
    match (x.client.publish x.scene p).2 with
    | .ok _ => some (.wait x.own none)
    | .error _ => some (.drop x.own)
  | .look, .waiting _ => some (.look x.own)
  | .drop, .publishing _ => some (.drop x.own)
  | .drop, .waiting _ => some (.drop x.own)
  | .other op, _ => if op.handle? = some x.own then none else some op
  | _, _ => none

def ops (x : Calling) : List Act → List Hall.Op
  | [] => []
  | act :: acts => (x.opOf? act).toList ++ (x.step act).ops acts

/-- All that an act can do: what it comes to at the registry, and how far the call has come then. -/
inductive Does (x : Calling) : Act → Option Hall.Op → Calling → Prop where
  | nothing {a} : Does x a none x
  | failed {scene e} (stage : x.stage = .called) (now : scene.now = x.scene.now)
      (registry : scene.env.desk.registry = x.registry) (early : e.unregistered = true) :
      Does x .place none { x with scene, stage := .returned (.error e) }
  | refused {scene deadline} (stage : x.stage = .called) (now : scene.now = x.scene.now)
      (registry : scene.env.desk.registry = (x.registry.register x.scene.now x.own.id deadline).2)
      (none : (x.registry.register x.scene.now x.own.id deadline).1 = none) :
      Does x .place (some (.register x.own deadline))
        { x with scene, stage := .returned (.error (.duplicate x.own.id)) }
  | placed {scene deadline p} (stage : x.stage = .called) (now : scene.now = x.scene.now)
      (registry : scene.env.desk.registry = (x.registry.register x.scene.now x.own.id deadline).2)
      (given : (x.registry.register x.scene.now x.own.id deadline).1 = some p.ticket) :
      Does x .place (some (.register x.own deadline))
        { x.withOwn (some ⟨p.ticket, Option.none⟩) with scene, stage := .publishing p, ticket? := some p.ticket }
  | published {scene p} (stage : x.stage = .publishing p) (now : scene.now = x.scene.now)
      (registry : scene.env.desk.registry = x.registry) :
      Does x .publish (some (.wait x.own none))
        { x.withOwn (some ⟨p.ticket, some (p.ticket.limit p.ticket.deadline)⟩) with scene, stage := .waiting p.ticket }
  | unpublished {scene p topic} (stage : x.stage = .publishing p) (now : scene.now = x.scene.now)
      (registry : scene.env.desk.registry = x.registry.release p.ticket) :
      Does x .publish (some (.drop x.own))
        { x.withOwn none with scene, stage := .returned (.error (.publish topic)) }
  | waits {ticket r} (stage : x.stage = .waiting ticket)
      (awaited : x.registry.await ticket (ticket.limit ticket.deadline) x.scene.now = (none, r)) :
      Does x .look (some (.look x.own)) (x.withRegistry r)
  | told {ticket r ending} (stage : x.stage = .waiting ticket)
      (awaited : x.registry.await ticket (ticket.limit ticket.deadline) x.scene.now = (some ending, r)) :
      Does x .look (some (.look x.own)) { (x.withRegistry r).withOwn none with stage := .returned ending.forwarded }
  | leaves (stage : x.stage = .called) : Does x .drop none { x with stage := .dropped }
  | withdraws {ticket} (stage : (∃ p, x.stage = .publishing p ∧ p.ticket = ticket) ∨ x.stage = .waiting ticket) :
      Does x .drop (some (.drop x.own))
        { (x.withRegistry (x.registry.release ticket)).withOwn none with stage := .dropped }
  | other {op} (foreign : op.handle? ≠ some x.own) :
      Does x (.other op) (some op)
        { x with
          scene := { x.scene with
            now := (x.hall.step op).2.now
            env := x.scene.env.withRegistry (x.hall.step op).2.registry }
          holds := (x.hall.step op).2.holds }
  | bus {bus} : Does x (.bus bus) none { x with scene := x.scene.withBus bus }

theorem place_does (x : Calling) : x.Does .place (x.opOf? .place) x.place := by
  obtain ⟨client, own, request, scene, holds, stage, ticket?⟩ := x
  cases stage with
  | called =>
    have applies := client.place_applies scene own.id request
    dsimp only [opOf?, place]
    generalize client.deadline? scene.now own.id request = deadline? at applies ⊢
    generalize client.place scene own.id request = result at applies ⊢
    cases applies with
    | failed now registry early => exact .failed rfl now registry early
    | refused now registry none => exact .refused rfl now registry none
    | placed now registry given => exact .placed rfl now registry given
  | publishing p => exact .nothing
  | waiting t => exact .nothing
  | returned r => exact .nothing
  | dropped => exact .nothing

theorem publish_does (x : Calling) : x.Does .publish (x.opOf? .publish) x.publish := by
  obtain ⟨client, own, request, scene, holds, stage, ticket?⟩ := x
  cases stage with
  | publishing p =>
    dsimp only [opOf?, publish]
    unfold Client.publish
    cases scene.bus.publish? client.requestsTopic p.request.encode with
    | none => exact .unpublished rfl rfl rfl
    | some bus => exact .published rfl rfl rfl
  | called => exact .nothing
  | waiting t => exact .nothing
  | returned r => exact .nothing
  | dropped => exact .nothing

theorem look_does (x : Calling) : x.Does .look (x.opOf? .look) x.look := by
  obtain ⟨client, own, request, scene, holds, stage, ticket?⟩ := x
  cases stage with
  | waiting t =>
    dsimp only [opOf?, look]
    split
    · rename_i ending r awaited
      exact .told rfl awaited
    · rename_i r awaited
      exact .waits rfl awaited
  | called => exact .nothing
  | publishing p => exact .nothing
  | returned r => exact .nothing
  | dropped => exact .nothing

theorem drop_does (x : Calling) : x.Does .drop (x.opOf? .drop) x.drop := by
  obtain ⟨client, own, request, scene, holds, stage, ticket?⟩ := x
  cases stage with
  | called => exact .leaves rfl
  | publishing p => exact .withdraws (Or.inl ⟨p, rfl, rfl⟩)
  | waiting t => exact .withdraws (Or.inr rfl)
  | returned r => exact .nothing
  | dropped => exact .nothing

theorem step_does (x : Calling) (act : Act) : x.Does act (x.opOf? act) (x.step act) := by
  cases act with
  | place => exact x.place_does
  | publish => exact x.publish_does
  | look => exact x.look_does
  | drop => exact x.drop_does
  | other op =>
    show x.Does (.other op) (if op.handle? = some x.own then none else some op) (x.other op)
    unfold other
    split
    · exact .nothing
    · rename_i foreign
      exact .other foreign
  | bus bus => exact .bus

def Keeps (x : Calling) : Prop :=
  x.holds x.own = x.stage.hold?

theorem Keeps.held {stage : Stage} (keeps : x.Keeps) (here : x.stage = stage) : x.hall.holds x.own = stage.hold? := by
  rw [← here]
  exact keeps

/-- What an act does is what its operation does to the hall. -/
theorem Does.hall {y : Calling} {op? : Option Hall.Op} (does : x.Does act op? y) (keeps : x.Keeps) :
    y.hall = x.hall.after op?.toList ∧ y.Keeps := by
  cases does with
  | nothing => exact ⟨rfl, keeps⟩
  | @failed scene e stage now registry early =>
    have free := keeps.held stage
    refine ⟨?_, free⟩
    show (⟨scene.now, scene.env.desk.registry, x.holds⟩ : Hall) = x.hall
    rw [now, registry]
    rfl
  | @refused scene deadline stage now registry none =>
    have free := keeps.held stage
    refine ⟨?_, free⟩
    show (⟨scene.now, scene.env.desk.registry, x.holds⟩ : Hall) = (x.hall.step (.register x.own deadline)).2
    rw [register_refused_of_free (x := x.hall) free none, now, registry]
    rfl
  | @placed scene deadline p stage now registry given =>
    have free := keeps.held stage
    refine ⟨?_, Function.update_self ..⟩
    show (⟨scene.now, scene.env.desk.registry, _⟩ : Hall) = (x.hall.step (.register x.own deadline)).2
    rw [register_given_of_free (x := x.hall) free given, now, registry]
    rfl
  | @published scene p stage now registry =>
    have held : x.hall.holds x.own = some ⟨p.ticket, none⟩ := keeps.held stage
    refine ⟨?_, Function.update_self ..⟩
    show (⟨scene.now, scene.env.desk.registry, _⟩ : Hall) = (x.hall.wait x.own none).2
    unfold Hall.wait
    rw [held, now, registry]
    rfl
  | @unpublished scene p topic stage now registry =>
    have held : x.hall.holds x.own = some ⟨p.ticket, none⟩ := keeps.held stage
    refine ⟨?_, Function.update_self ..⟩
    show (⟨scene.now, scene.env.desk.registry, _⟩ : Hall) = (x.hall.drop x.own).2
    unfold Hall.drop
    rw [held, now, registry]
    rfl
  | @waits t r stage awaited =>
    have held : x.hall.holds x.own = some ⟨t, some (t.limit t.deadline)⟩ := keeps.held stage
    have awaited : x.hall.registry.await t (t.limit t.deadline) x.hall.now = (none, r) := awaited
    refine ⟨?_, ?_⟩
    · show _ = (x.hall.look x.own).2
      unfold Hall.look
      rw [held]
      dsimp only
      rw [awaited]
      rfl
    · exact keeps
  | @told t r ending stage awaited =>
    have held : x.hall.holds x.own = some ⟨t, some (t.limit t.deadline)⟩ := keeps.held stage
    have awaited : x.hall.registry.await t (t.limit t.deadline) x.hall.now = (some ending, r) := awaited
    refine ⟨?_, Function.update_self ..⟩
    show _ = (x.hall.look x.own).2
    unfold Hall.look
    rw [held]
    dsimp only
    rw [awaited]
    rfl
  | leaves stage =>
    have free := keeps.held stage
    exact ⟨rfl, free⟩
  | @withdraws t stage =>
    have held : ∃ since?, x.hall.holds x.own = some ⟨t, since?⟩ := by
      rcases stage with ⟨p, stage, rfl⟩ | stage
      · exact ⟨_, keeps.held stage⟩
      · exact ⟨_, keeps.held stage⟩
    obtain ⟨since?, held⟩ := held
    refine ⟨?_, Function.update_self ..⟩
    show _ = (x.hall.drop x.own).2
    unfold Hall.drop
    rw [held]
    rfl
  | other foreign => exact ⟨rfl, (holds_of_foreign x.hall foreign).trans keeps⟩
  | bus => exact ⟨rfl, keeps⟩

end Calling

end SoapRelay
