import Mathlib.Data.List.Induction
import SoapRelay.Proofs.Bus
import SoapRelay.Proofs.Delivery
import SoapRelay.Proofs.Platform
import SoapRelay.Relay

/-!
# Exchanges are runs of a relay

Whatever an exchange does, with callers and consumers that are served in turn and time that jumps, some
run of a relay does too: it comes to the same scene and the same stations.
-/

namespace SoapRelay

variable {c : Client} {p : Platform} {s s' : Scene Traffic} {stations : List Station} {x₀ : Relay}

/-! ### Runs that come to a scene -/

theorem Relay.after_concat (x : Relay) (acts : List Act) (act : Act) :
    x.after (acts ++ [act]) = (x.after acts).step act :=
  List.foldl_append

theorem Relay.after_reachable {x : Relay} (acts : List Act)
    (admitted : ∀ past act rest, acts = past ++ act :: rest → (x.after past).Admits act) :
    x.Reachable (x.after acts) := by
  induction acts using List.reverseRecOn with
  | nil => exact .start
  | append_singleton acts act ih =>
    rw [after_concat]
    refine .step act (admitted acts act [] rfl) (ih ?_)
    intro past next rest cut
    refine admitted past next (rest ++ [act]) ?_
    rw [cut, List.append_assoc, List.cons_append]

/-- Some run of a relay comes to this scene and these stations, with every call published. -/
def Leads (x₀ : Relay) (c : Client) (p : Platform) (s : Scene Traffic) (stations : List Station) : Prop :=
  ∃ acts made, x₀.after acts = ⟨c, p, s, stations, made, []⟩

namespace Leads

theorem next {stations' : List Station} (leads : Leads x₀ c p s stations) (act : Relay.Act)
    (performs : ∀ made, (⟨c, p, s, stations, made, []⟩ : Relay).step act = ⟨c, p, s', stations', made, []⟩) :
    Leads x₀ c p s' stations' := by
  obtain ⟨acts, made, comes⟩ := leads
  refine ⟨acts ++ [act], made, ?_⟩
  rw [Relay.after_concat, comes]
  exact performs made

theorem pass (leads : Leads x₀ c p s stations) {time : Nat} (early : s.now ≤ time) :
    Leads x₀ c p { s with now := time } stations := by
  refine leads.next (.pass (time - s.now)) fun made => ?_
  simp only [Relay.step, Nat.add_sub_of_le early]

theorem stop (leads : Leads x₀ c p s stations) : Leads x₀ c p { s with stopping := true } stations :=
  leads.next .stop fun _ => rfl

theorem accept (leads : Leads x₀ c p s stations) {topic message : String} {bus : Bus}
    (accepted : s.bus.publish? topic message = some bus) : Leads x₀ c p (s.withBus bus) stations := by
  refine leads.next (.accept topic message) fun made => ?_
  simp only [Relay.step, Relay.accept, accepted]

end Leads

/-! ### Callers -/

def Scene.withDesk (s : Scene Traffic) (desk : Desk) : Scene Traffic :=
  s.withEnv { s.env with desk }

/-- Callers that wait beside the one that looks, and are yet to look, go first in the end. -/
theorem Desk.look_before (now : Nat) (d : Desk) (w : Waiter) (rest : List Waiter) :
    Desk.look now { d with waiters := rest ++ d.waiters } w =
      { d.look now w with waiters := rest ++ (d.look now w).waiters } := by
  unfold Desk.look
  dsimp only
  split
  · rfl
  · rw [List.append_assoc]

namespace Leads

variable {d : Desk}

theorem reaper (leads : Leads x₀ c p (s.withDesk d) stations) (reaper? : Option Reaper) :
    Leads x₀ c p (s.withDesk { d with reaper? }) stations :=
  leads.next (.reaper reaper?) fun _ => rfl

theorem sweep (leads : Leads x₀ c p (s.withDesk d) stations) :
    Leads x₀ c p (s.withDesk { d with registry := (d.registry.sweep s.now).2 }) stations :=
  leads.next .sweep fun _ => rfl

theorem look {w : Waiter} {rest : List Waiter}
    (leads : Leads x₀ c p (s.withDesk { d with waiters := w :: rest ++ d.waiters }) stations) :
    Leads x₀ c p (s.withDesk { d.look s.now w with waiters := rest ++ (d.look s.now w).waiters }) stations := by
  refine leads.next (.look w) fun made => ?_
  have waits : w ∈ w :: rest ++ d.waiters := List.mem_cons_self ..
  have others : (w :: rest ++ d.waiters).erase w = rest ++ d.waiters := List.erase_cons_head ..
  rw [← Desk.look_before]
  simp only [Relay.step, Relay.look, Relay.desk, Scene.withDesk, Scene.withEnv, waits, others, if_true]
  rfl

theorem foldl_look (waiters : List Waiter)
    (leads : Leads x₀ c p (s.withDesk { d with waiters := waiters ++ d.waiters }) stations) :
    Leads x₀ c p (s.withDesk (waiters.foldl (Desk.look s.now) d)) stations := by
  induction waiters generalizing d with
  | nil => exact leads
  | cons w rest ih => exact ih leads.look

theorem settle (leads : Leads x₀ c p (s.withDesk d) stations) :
    Leads x₀ c p (s.withDesk (d.settle s.now)) stations := by
  refine foldl_look d.waiters ?_
  rw [List.append_nil]
  exact leads

theorem reap (leads : Leads x₀ c p (s.withDesk d) stations) :
    Leads x₀ c p (s.withDesk (d.reap s.now)) stations := by
  unfold Desk.reap
  split
  · split
    · exact leads.sweep.reaper _
    · exact leads
  · exact leads

theorem wake (leads : Leads x₀ c p s stations) :
    Leads x₀ c p (s.withDesk (s.env.desk.wake s.now)) stations :=
  (reap leads).settle

theorem collect (leads : Leads x₀ c p s stations) :
    Leads x₀ c p (s.withDesk { s.env.desk with ended := [] }) stations :=
  leads.next .collect fun _ => rfl

theorem leave (leads : Leads x₀ c p s stations) {serial : Nat} {desk : Desk}
    (gone : s.env.desk.abandon? serial = some desk) : Leads x₀ c p (s.withDesk desk) stations := by
  refine leads.next (.leave serial) fun made => ?_
  simp only [Relay.step, Relay.leave, Relay.desk, gone]
  rfl

end Leads

/-! ### Calls -/

theorem place_refused {stations : List Station} {made : List ForwardedCall} {name : String} {id : CallId}
    {r : ForwardRequest} {e : ForwardError} (placed : c.place s id r = (s', .error e)) :
    (⟨c, p, s, stations, made, []⟩ : Relay).step (.place name id r) =
      ⟨c, p, s', stations, made ++ [⟨name, id, r, none⟩], []⟩ := by
  simp only [Relay.step, Relay.place, placed]

theorem place_accepted {made : List ForwardedCall} {name : String} {id : CallId} {r : ForwardRequest}
    {call : Client.Placed} (placed : c.place s id r = (s', .ok call)) :
    (⟨c, p, s, stations, made, []⟩ : Relay).step (.place name id r) =
      ⟨c, p, s', stations, made ++ [⟨name, id, r, some call.ticket.serial⟩], [(name, call)]⟩ := by
  simp only [Relay.step, Relay.place, placed]
  rfl

/-- A call that is made takes two acts: it is placed, and published if it is not refused. -/
theorem Leads.forward (leads : Leads x₀ c p s stations) (f : Front) (client : f.client = c) (name : String)
    (r : ForwardRequest) :
    (f.forward s name r).1.client = c ∧ Leads x₀ c p (f.forward s name r).2 stations := by
  subst client
  obtain ⟨acts, made, comes⟩ := leads
  unfold Front.forward Client.forward
  dsimp only
  cases placed : f.client.place s (.numbered f.nextId) r with
  | mk s' result =>
    cases result with
    | error e =>
      refine ⟨Front.refuse_client _ _ _ _, acts ++ [.place name (.numbered f.nextId) r],
        made ++ [⟨name, .numbered f.nextId, r, none⟩], ?_⟩
      rw [Relay.after_concat, comes, place_refused placed]
    | ok call =>
      refine ⟨?_, acts ++ [.place name (.numbered f.nextId) r] ++ [.publish 0],
        made ++ [⟨name, .numbered f.nextId, r, some call.ticket.serial⟩], ?_⟩
      · dsimp only
        split
        · exact Front.refuse_client _ _ _ _
        · rfl
      rw [Relay.after_concat, Relay.after_concat, comes, place_accepted placed]
      dsimp only
      cases published : f.client.publish s' call with
      | mk s'' result =>
        cases result with
        | error e =>
          simp only [Relay.step, Relay.publish, List.getElem?_cons_zero, published]
          rfl
        | ok ticket =>
          simp only [Relay.step, Relay.publish, List.getElem?_cons_zero, published]
          rfl

/-! ### Nothing is taken and no time passes -/

/-- The time is the same, and as many messages were taken from each topic. -/
structure Scene.Stays (s s' : Scene Traffic) : Prop where
  now : s'.now = s.now
  takings : s'.bus.takings = s.bus.takings

namespace Scene.Stays

theorem withBus {message topic : String} {bus : Bus} (stays : s.Stays s')
    (accepted : s'.bus.publish? topic message = some bus) : s.Stays (s'.withBus bus) :=
  ⟨stays.now, (Bus.takings_publish? accepted).trans stays.takings⟩

theorem withEnv (stays : s.Stays s') (env : Traffic) : s.Stays (s'.withEnv env) :=
  ⟨stays.now, stays.takings⟩

end Scene.Stays

theorem Platform.Concludes.stays {w : CallWork} {result : Scene Traffic × Outcome} (concludes : p.Concludes s' w result)
    (stays : s.Stays s') : s.Stays result.1 := by
  cases concludes with
  | replied answered signed accepted => exact (stays.withEnv _).withBus accepted
  | unheard answered signed fails => exact stays.withEnv _
  | failed fails => exact stays

theorem Platform.start_stays (p : Platform) (stays : s.Stays s') (message : String) :
    s.Stays (p.start s' message).1 := by
  have begins := p.start_begins s' message
  generalize p.start s' message = result at begins
  cases begins with
  | refused fails => exact stays
  | waits screened => exact stays.withEnv _
  | answered screened concludes => exact concludes.stays (stays.withEnv _)

theorem Replies.handle_stays (signer : Signer) (stays : s.Stays s') (message : String) :
    s.Stays (Replies.handle signer s' message).1 := by
  unfold Replies.handle
  split
  · exact stays
  · split
    · exact stays.withEnv _
    · exact stays

theorem Role.keeps_stays (role : Role) (consumer : Consumer) (message : String) (s : Scene Traffic) :
    Delivery.Keeps (role.handler c p) consumer message s.Stays fun _ _ => True := by
  have passedOn : ∀ s' bus, s.Stays s' → s'.bus.publish? consumer.deadLetterTopic message = some bus →
      s.Stays (s'.withBus bus) := fun _ _ stays accepted => stays.withBus accepted
  cases role with
  | deadLetters => exact ⟨fun _ stays => ⟨stays, fun _ _ _ => trivial⟩, fun _ _ stays _ => stays, passedOn⟩
  | requests =>
    refine ⟨fun s' stays => ⟨p.start_stays stays message, fun _ _ _ => trivial⟩, ?_, passedOn⟩
    exact fun s' work stays _ => (p.finish_concludes s' work).stays stays
  | replies =>
    refine ⟨fun s' stays => ⟨Replies.handle_stays c.signer stays message, fun _ _ _ => trivial⟩, ?_, passedOn⟩
    exact fun _ _ stays _ => stays

namespace Worker

variable {w w' : Worker CallWork} {role : Role}

theorem take?_now (took : w.take? s = some (s', w')) : s'.now = s.now := by
  cases takes_of_take? took with
  | message subscribed running room received => rfl
  | nothing subscribed stopping => rfl

theorem goAt?_stays {k : Nat} {ended : Bool} (went : w.goAt? (role.handler c p) s k = some (s', w', ended)) :
    s.Stays s' := by
  obtain ⟨d, _, rfl, _⟩ := goAt?_cases went
  exact (Delivery.go_kept (role.keeps_stays w.consumer d.message s) ⟨rfl, fun _ _ _ => trivial⟩ ⟨rfl, rfl⟩).holds

end Worker

/-! ### Consumers -/

namespace Leads

variable {i : Nat} {t : Station} {w w' : Worker CallWork}

theorem take (leads : Leads x₀ c p s (stations.set i { t with worker := w })) (inside : i < stations.length)
    (took : w.take? s = some (s', w')) : Leads x₀ c p s' (stations.set i { t with worker := w' }) := by
  refine leads.next (.take i) fun made => ?_
  have here : (stations.set i { t with worker := w })[i]? = some { t with worker := w } :=
    List.getElem?_set_self inside
  simp only [Relay.step, Relay.take, here, took, List.set_set]

theorem go (leads : Leads x₀ c p s (stations.set i { t with worker := w })) (inside : i < stations.length)
    {k : Nat} {ended : Bool} (went : w.goAt? (t.role.handler c p) s k = some (s', w', ended)) :
    Leads x₀ c p s' (stations.set i { t with worker := w' }) := by
  refine leads.next (.go i k) fun made => ?_
  have here : (stations.set i { t with worker := w })[i]? = some { t with worker := w } :=
    List.getElem?_set_self inside
  simp only [Relay.step, Relay.go, here, went, List.set_set]

/-- A worker that settles takes messages and goes on with them, and no time passes. -/
theorem worker (leads : Leads x₀ c p s (stations.set i { t with worker := w })) (inside : i < stations.length)
    (fuel : Nat) : (w.settle (t.role.handler c p) fuel s).1.now = s.now ∧
      Leads x₀ c p (w.settle (t.role.handler c p) fuel s).1
        (stations.set i { t with worker := (w.settle (t.role.handler c p) fuel s).2 }) := by
  have start : s.now = s.now ∧ Leads x₀ c p s (stations.set i { t with worker := w }) := ⟨rfl, leads⟩
  refine Worker.settle_keeps (P := fun s' w => s'.now = s.now ∧
    Leads x₀ c p s' (stations.set i { t with worker := w })) ?_ ?_ fuel start
  · rintro s₁ w₁ s₂ w₂ ⟨same, leads⟩ took
    exact ⟨(Worker.take?_now took).trans same, leads.take inside took⟩
  · rintro s₁ w₁ k s₂ w₂ ended ⟨same, leads⟩ _ went
    exact ⟨(Worker.goAt?_stays went).now.trans same, leads.go inside went⟩

end Leads

/-! ### Exchanges -/

namespace Exchange

variable {x y : Exchange} {now limit : Nat}

/-- Some run of a relay comes to where an exchange stands at some time. -/
structure Mirrored (x₀ : Relay) (now : Nat) (x : Exchange) : Prop where
  leads : Leads x₀ x.front.client x.platform x.scene x.stations
  now : x.scene.now = now

namespace Mirrored

theorem workOnce (mirrored : Mirrored x₀ now x) (worked : x.workOnce = some y) : Mirrored x₀ now y := by
  unfold Exchange.workOnce at worked
  split at worked
  · cases worked
  · split at worked
    · cases worked
    · rename_i i _ _ t station
      dsimp only at worked
      obtain ⟨inside, here⟩ := List.getElem?_eq_some_iff.mp station
      have unchanged : x.stations.set i { t with worker := t.worker } = x.stations := by
        rw [← here]
        exact List.set_getElem_self inside
      have leads := mirrored.leads
      rw [← unchanged] at leads
      obtain ⟨same, after⟩ := leads.worker inside Worker.rounds
      obtain rfl := Option.some.inj worked
      exact ⟨after, same.trans mirrored.now⟩

theorem work (mirrored : Mirrored x₀ now x) (rounds : Nat) : Mirrored x₀ now (x.work rounds) := by
  induction rounds generalizing x with
  | zero => exact mirrored
  | succ rounds ih =>
    unfold Exchange.work
    split
    · rename_i y worked
      exact ih (mirrored.workOnce worked)
    · exact mirrored

theorem settleDesk (mirrored : Mirrored x₀ now x) : Mirrored x₀ now x.settleDesk :=
  ⟨mirrored.leads.wake, mirrored.now⟩

theorem settle (mirrored : Mirrored x₀ now x) : Mirrored x₀ now x.settle :=
  (mirrored.settleDesk.work Worker.rounds).settleDesk

theorem wake {time : Nat} (mirrored : Mirrored x₀ now x) (early : now ≤ time) : Mirrored x₀ time (x.wake time) := by
  have passed := mirrored.leads.pass (Nat.le_trans (Nat.le_of_eq mirrored.now) early)
  exact settle ⟨passed, rfl⟩

theorem pass (mirrored : Mirrored x₀ now x) (early : now ≤ limit) :
    ∃ then_, then_ ≤ limit ∧ Mirrored x₀ then_ (Clock.pass nextWake Exchange.wake limit now x) := by
  fun_induction Clock.pass nextWake Exchange.wake limit now x with
  | case1 now x => exact ⟨now, early, mirrored⟩
  | case2 now x t _ within ih => exact ih (mirrored.wake (Nat.le_of_lt within.1)) within.2
  | case3 now x => exact ⟨now, early, mirrored⟩

theorem sleep (mirrored : Mirrored x₀ now x) (time : Nat) : Mirrored x₀ (now + time) (x.sleep time) := by
  obtain rfl := mirrored.now
  obtain ⟨then_, before, passed⟩ := mirrored.pass (Nat.le_add_right x.scene.now time)
  obtain rfl := passed.now
  exact ⟨passed.leads.pass before, rfl⟩

theorem runUntil (mirrored : Mirrored x₀ now x) (holds : Exchange → Bool) (steps : Nat) :
    ∃ then_, Mirrored x₀ then_ (Clock.runUntil holds nextWake Exchange.wake steps now x).2 := by
  induction steps generalizing now x with
  | zero => exact ⟨now, mirrored⟩
  | succ steps ih =>
    unfold Clock.runUntil
    split
    · exact ⟨now, mirrored⟩
    · split
      · exact ⟨now, mirrored⟩
      · rename_i t _
        exact ih (mirrored.wake (Nat.le_max_left now t))

theorem shutdown (mirrored : Mirrored x₀ now x) : ∃ then_, Mirrored x₀ then_ x.shutdown := by
  obtain rfl := mirrored.now
  have ordered : Mirrored x₀ x.scene.now { x with
      scene := { x.scene.withDesk { x.scene.env.desk with reaper? := none } with stopping := true } } :=
    ⟨(Leads.reaper mirrored.leads none).stop, rfl⟩
  have settled := ordered.settle
  have now := settled.now
  unfold Exchange.shutdown
  dsimp only
  refine runUntil ?_ _ _
  exact ⟨settled.leads, rfl⟩

end Mirrored

theorem start_mirrored (front : Front) (platform : Platform) (topics : Topics) (hash : String → UInt64) :
    Mirrored (.start front.client platform topics.consumers hash) 0 (start front platform topics hash) := by
  have first : Leads (.start front.client platform topics.consumers hash) front.client platform
      (Scene.withDesk ⟨0, (enlist .empty topics.consumers).1, false, .start hash⟩ (Traffic.start hash).desk)
      (enlist .empty topics.consumers).2 := ⟨[], [], rfl⟩
  exact Mirrored.settle ⟨first.reaper (some ⟨sweepInterval, 0⟩), rfl⟩

end Exchange

/-! ### Sessions -/

namespace ExchangeSession

open Exchange

variable {session : ExchangeSession} {now : Nat}

theorem forward_mirrored (mirrored : Mirrored x₀ now session.exchange) (f : Front)
    (same : f.client = session.exchange.front.client) (name : String) (r : ForwardRequest) :
    ∃ then_, Mirrored x₀ then_ { session.exchange with
      front := (f.forward session.exchange.scene name r).1
      scene := (f.forward session.exchange.scene name r).2 } := by
  obtain ⟨client, leads⟩ := mirrored.leads.forward f same name r
  exact ⟨_, client ▸ leads, rfl⟩

theorem perform_mirrored (mirrored : Mirrored x₀ now session.exchange) (step : Step) :
    ∃ then_, Mirrored x₀ then_ (session.perform step).2.exchange := by
  cases step with
  | forward name r =>
    refine forward_mirrored mirrored _ ?_ name r
    rfl
  | http name call =>
    unfold perform Front.serve
    dsimp only
    split
    · exact ⟨now, mirrored.leads, mirrored.now⟩
    · rename_i r _
      refine forward_mirrored mirrored _ ?_ name r
      rfl
  | abort name =>
    unfold perform Front.abandon
    dsimp only
    split
    · rename_i desk found
      obtain ⟨serial, _, gone⟩ := Option.bind_eq_some_iff.mp found
      exact ⟨now, mirrored.leads.leave gone, mirrored.now⟩
    · exact ⟨now, mirrored⟩
  | sleep time => exact ⟨now + time, mirrored.sleep time⟩
  | publish topic message =>
    unfold perform
    dsimp only
    split
    · rename_i bus accepted
      exact ⟨now, mirrored.leads.accept accepted, mirrored.now⟩
    · exact ⟨now, mirrored⟩
  | shutdown =>
    unfold perform
    dsimp only
    split
    · exact mirrored.shutdown
    · exact ⟨now, mirrored⟩

theorem step_mirrored (mirrored : Mirrored x₀ now session.exchange) (step : Step) :
    ∃ then_, Mirrored x₀ then_ (session.step step).2.exchange := by
  obtain ⟨then_, performed⟩ := perform_mirrored mirrored step
  have settled := performed.settle
  exact ⟨then_, settled.leads.collect, settled.now⟩

inductive Reached (start : Exchange) : ExchangeSession → Prop where
  | start : Reached start ⟨start, true⟩
  | step {s : ExchangeSession} (reached : Reached start s) (next : Step) : Reached start (s.step next).2

/-- A session is a run of a relay: it comes to the same scene and the same stations. If the calls of the
run have names and ids of their own, and no forged message is handled, the relay is reachable. -/
theorem reached_run {front : Front} {platform : Platform} {topics : Topics} {hash : String → UInt64}
    (reached : Reached (.start front platform topics hash) session) :
    ∃ acts, ((Relay.start front.client platform topics.consumers hash).after acts).scene = session.exchange.scene ∧
      ((Relay.start front.client platform topics.consumers hash).after acts).stations = session.exchange.stations ∧
      ((∀ past act rest, acts = past ++ act :: rest →
          ((Relay.start front.client platform topics.consumers hash).after past).Admits act) →
        (Relay.start front.client platform topics.consumers hash).Reachable
          ((Relay.start front.client platform topics.consumers hash).after acts)) := by
  have mirrored : ∃ now, Mirrored (.start front.client platform topics.consumers hash) now session.exchange := by
    induction reached with
    | start => exact ⟨0, start_mirrored front platform topics hash⟩
    | step _ next ih =>
      obtain ⟨now, mirrored⟩ := ih
      exact step_mirrored mirrored next
  obtain ⟨now, ⟨acts, made, comes⟩, _⟩ := mirrored
  exact ⟨acts, congrArg Relay.scene comes, congrArg Relay.stations comes, Relay.after_reachable acts⟩

end ExchangeSession

end SoapRelay
