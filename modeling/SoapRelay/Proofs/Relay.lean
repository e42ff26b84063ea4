import Mathlib.Data.List.Pairwise
import SoapRelay.Proofs.Provenance

/-!
# A caller only gets its own reply

One invariant holds of the callers, the registry and everything in flight, whichever side acts next.
From it, a caller that is told a reply is told what an outbound call for its own request came to.
-/

namespace SoapRelay.Relay

open Registry

variable {x y : Relay}

/-- Two calls that cannot be taken for one another. -/
structure Apart (c d : ForwardedCall) : Prop where
  name : c.name ≠ d.name
  id : c.id ≠ d.id
  serial : ∀ n, c.serial? = some n → d.serial? ≠ some n

theorem Apart.symm {c d : ForwardedCall} (apart : Apart c d) : Apart d c :=
  ⟨apart.name.symm, apart.id.symm, fun n mine other => apart.serial n other mine⟩

/-- A call was made under a name, and has a ticket. -/
def Named (made : List ForwardedCall) (name : String) (ticket : Ticket) : Prop :=
  ∃ c ∈ made, c.name = name ∧ c.serial? = some ticket.serial

theorem Named.more {made : List ForwardedCall} {name : String} {ticket : Ticket} (named : Named made name ticket)
    (c : ForwardedCall) : Named (made ++ [c]) name ticket := by
  obtain ⟨d, member, own⟩ := named
  exact ⟨d, List.mem_append_left _ member, own⟩

/-- What holds of both sides whenever nothing is going on. -/
structure Sound (x : Relay) : Prop where
  faithful : Faithful x.platform x.made x.scene.env
  distinct : x.made.Pairwise Apart
  issued : ∀ c ∈ x.made, ∀ n, c.serial? = some n → n < x.desk.registry.nextSerial
  placed : ∀ p ∈ x.placed, Named x.made p.1 p.2.ticket
  waiting : ∀ w ∈ x.desk.waiters, Named x.made w.name w.ticket
  told : ∀ e ∈ x.desk.ended, ∀ body, e.ending = .reply body → ∃ c ∈ x.made, c.name = e.name ∧
    Answered x.platform x.made x.scene.env.invocations c.id body
  work : ∀ t ∈ x.stations, ∀ d ∈ t.worker.inFlight, ∀ work until_, d.stage = .handling work until_ →
    Justified x.platform x.made x.scene.env work

namespace Sound

theorem eq_of_apart (sound : x.Sound) {c d : ForwardedCall} (hc : c ∈ x.made) (hd : d ∈ x.made)
    (mixed : ¬Apart c d) : c = d := by
  have symmetric : Std.Symm Apart := ⟨fun _ _ => Apart.symm⟩
  by_contra different
  exact mixed (sound.distinct.forall hc hd different)

theorem eq_of_name (sound : x.Sound) {c d : ForwardedCall} (hc : c ∈ x.made) (hd : d ∈ x.made)
    (same : c.name = d.name) : c = d :=
  sound.eq_of_apart hc hd fun apart => apart.name same

theorem eq_of_id (sound : x.Sound) {c d : ForwardedCall} (hc : c ∈ x.made) (hd : d ∈ x.made)
    (same : c.id = d.id) : c = d :=
  sound.eq_of_apart hc hd fun apart => apart.id same

theorem eq_of_serial (sound : x.Sound) {c d : ForwardedCall} (hc : c ∈ x.made) (hd : d ∈ x.made) {n : Nat}
    (mine : c.serial? = some n) (same : d.serial? = some n) : c = d :=
  sound.eq_of_apart hc hd fun apart => apart.serial n mine same

/-- A desk where no reply has come in. -/
theorem withDesk (sound : x.Sound) {desk : Desk} (lessens : x.desk.registry.Lessens desk.registry)
    (waiting : ∀ w ∈ desk.waiters, Named x.made w.name w.ticket)
    (told : ∀ e ∈ desk.ended, ∀ body, e.ending = .reply body → ∃ c ∈ x.made, c.name = e.name ∧
      Answered x.platform x.made x.scene.env.invocations c.id body) : (x.withDesk desk).Sound where
  faithful := sound.faithful.lessens lessens rfl rfl rfl
  distinct := sound.distinct
  issued c member n serial := Nat.lt_of_lt_of_le (sound.issued c member n serial) lessens.serial
  placed := sound.placed
  waiting := waiting
  told := told
  work := sound.work

theorem withRegistry (sound : x.Sound) {r : Registry} (lessens : x.desk.registry.Lessens r) :
    (x.withRegistry r).Sound :=
  sound.withDesk lessens sound.waiting sound.told

theorem withScene (sound : x.Sound) {s : Scene Traffic} (env : s.env = x.scene.env) :
    Sound { x with scene := s } where
  faithful := env ▸ sound.faithful
  distinct := sound.distinct
  issued := by
    rw [desk, env]
    exact sound.issued
  placed := sound.placed
  waiting := by
    rw [desk, env]
    exact sound.waiting
  told := by
    rw [desk, env]
    exact sound.told
  work := by
    intro t member d inFlight work until_ stage
    rw [env]
    exact sound.work t member d inFlight work until_ stage

theorem withPlaced (sound : x.Sound) {placed : List (String × Client.Placed)}
    (fewer : ∀ p ∈ placed, p ∈ x.placed) : Sound { x with placed } where
  faithful := sound.faithful
  distinct := sound.distinct
  issued := sound.issued
  placed p member := sound.placed p (fewer p member)
  waiting := sound.waiting
  told := sound.told
  work := sound.work

/-- One more call, under a serial that is new if it has one. -/
theorem withMade (sound : x.Sound) {s : Scene Traffic} {c : ForwardedCall}
    (notes : Client.Notes x.scene s (Client.request c.id c.request).unsigned)
    (new : ∀ d ∈ x.made, d.name ≠ c.name ∧ d.id ≠ c.id)
    (faithful : Faithful x.platform (x.made ++ [c]) s.env)
    (serial : x.desk.registry.nextSerial ≤ s.env.desk.registry.nextSerial)
    (newSerial : ∀ n, c.serial? = some n → n = x.desk.registry.nextSerial ∧ n < s.env.desk.registry.nextSerial) :
    Sound { x with scene := s, made := x.made ++ [c] } where
  faithful := faithful
  distinct := by
    refine List.pairwise_append.mpr ⟨sound.distinct, List.pairwise_singleton _ _, ?_⟩
    intro d member e last
    obtain rfl := List.mem_singleton.mp last
    refine ⟨(new d member).1, (new d member).2, ?_⟩
    intro n theirs mine
    have before := sound.issued d member n theirs
    have next := (newSerial n mine).1
    omega
  issued := by
    intro d member n own
    rcases List.mem_append.mp member with old | new
    · exact Nat.lt_of_lt_of_le (sound.issued d old n own) serial
    · obtain rfl := List.mem_singleton.mp new
      exact (newSerial n own).2
  placed p member := (sound.placed p member).more c
  waiting := by
    intro w member
    rw [desk, notes.waiters] at member
    exact (sound.waiting w member).more c
  told := by
    intro e member body reply
    rw [desk, notes.ended] at member
    obtain ⟨d, found, named, answered⟩ := sound.told e member body reply
    dsimp only
    rw [notes.invocations]
    exact ⟨d, List.mem_append_left _ found, named, answered.more c⟩
  work := by
    intro t member d inFlight work until_ stage
    exact (sound.work t member d inFlight work until_ stage).more notes.invocations c

end Sound

/-! ### What callers do -/

theorem look_sound (sound : x.Sound) (w : Waiter) : (x.look w).Sound := by
  have valid : x.desk.registry.Valid := sound.faithful.valid
  have lessens := await_lessens valid w.ticket w.until_ x.scene.now
  unfold look
  split
  · rename_i waits
    unfold Desk.look
    dsimp only
    split
    · rename_i ending registry answer
      rw [answer] at lessens
      refine sound.withDesk lessens (fun v member => sound.waiting v (List.mem_of_mem_erase member)) ?_
      intro e member body reply
      rcases List.mem_append.mp member with old | new
      · exact sound.told e old body reply
      · obtain rfl := List.mem_singleton.mp new
        obtain rfl : ending = .reply body := reply
        have left := left_of_await valid (congrArg Prod.fst answer)
        obtain ⟨c, found, own, answered⟩ := sound.faithful.left _ _ left
        obtain ⟨d, member, named, ticket⟩ := sound.waiting w waits
        obtain rfl := sound.eq_of_serial found member own ticket
        exact ⟨c, found, named, answered⟩
    · rename_i registry answer
      rw [answer] at lessens
      refine sound.withDesk lessens ?_ sound.told
      intro v member
      rcases List.mem_append.mp member with old | new
      · exact sound.waiting v (List.mem_of_mem_erase old)
      · obtain rfl := List.mem_singleton.mp new
        exact sound.waiting v waits
  · exact sound

theorem leave_sound (sound : x.Sound) (serial : Nat) : (x.leave serial).Sound := by
  unfold leave Desk.abandon?
  cases x.desk.waiters.find? (·.ticket.serial == serial) with
  | none => exact sound
  | some w =>
    have lessens := release_lessens sound.faithful.valid w.ticket
    exact sound.withDesk lessens (fun v member => sound.waiting v (List.mem_filter.mp member).1) sound.told

theorem place_sound (sound : x.Sound) {name : String} {id : CallId} (request : ForwardRequest)
    (new : ∀ c ∈ x.made, c.name ≠ name ∧ c.id ≠ id) : (x.place name id request).Sound := by
  have valid := sound.faithful.valid
  have notes := Client.place_notes x.client x.scene id request
  have places : Client.Places x.scene id (x.client.place x.scene id request) := Client.place_places valid
  unfold place
  generalize x.client.place x.scene id request = result at notes places
  cases places with
  | refused lessens =>
    refine sound.withMade notes new ?_ lessens.serial nofun
    exact sound.faithful.place notes lessens.valid (fun e member => Or.inl (lessens.entries e member))
      lessens.replies
  | @placed s p now issued enters =>
    have later : s.env.desk.registry.nextSerial = x.desk.registry.nextSerial + 1 := enters.serial
    have issued : p.ticket.serial = x.desk.registry.nextSerial := issued
    have next : Sound { x with scene := s, made := x.made ++ [⟨name, id, request, some p.ticket.serial⟩] } := by
      refine sound.withMade notes new ?_ (by omega) ?_
      · refine sound.faithful.place notes (enters.valid valid) ?_ ?_
        · intro e member
          rcases enters.mem_entries.mp member with rfl | old
          · exact Or.inr ⟨rfl, rfl⟩
          · exact Or.inl old
        · intro serial text member
          exact enters.endings ▸ member
      · intro n own
        obtain rfl := Option.some.inj own
        exact ⟨issued, by omega⟩
    refine ⟨next.faithful, next.distinct, next.issued, ?_, next.waiting, next.told, next.work⟩
    intro q member
    rcases List.mem_append.mp member with old | new
    · exact next.placed q old
    · obtain rfl := List.mem_singleton.mp new
      exact ⟨_, List.mem_append_right _ (List.mem_singleton_self _), rfl, rfl⟩

theorem publish_sound (sound : x.Sound) (i : Nat) : (x.publish i).Sound := by
  unfold publish
  split
  · rename_i name p found
    have named := sound.placed _ (List.mem_of_getElem? found)
    have rest := sound.withPlaced fun q (member : q ∈ x.placed.eraseIdx i) => List.mem_of_mem_eraseIdx member
    dsimp only
    rcases Client.publish_cases x.client x.scene p with ⟨accepted, env⟩ | ⟨⟨error, refused⟩, env⟩
    · rw [accepted]
      have next := rest.withScene env
      refine next.withDesk (.refl next.faithful.valid) ?_ next.told
      intro w member
      rcases List.mem_append.mp member with old | new
      · exact next.waiting w old
      · obtain rfl := List.mem_singleton.mp new
        exact named
    · rw [refused]
      exact (rest.withRegistry (release_lessens rest.faithful.valid p.ticket)).withScene env
  · exact sound

theorem withdraw_sound (sound : x.Sound) (i : Nat) : (x.withdraw i).Sound := by
  unfold withdraw
  split
  · rename_i name p found
    have rest := sound.withPlaced fun q (member : q ∈ x.placed.eraseIdx i) => List.mem_of_mem_eraseIdx member
    exact rest.withRegistry (release_lessens rest.faithful.valid p.ticket)
  · exact sound

/-! ### What consumers do -/

theorem take_sound (sound : x.Sound) (i : Nat) : (x.take i).Sound := by
  unfold take
  split
  · rename_i t station
    split
    · rename_i s worker took
      obtain ⟨env, inFlight⟩ := Worker.take?_cases took
      have scene := sound.withScene env
      refine ⟨scene.faithful, scene.distinct, scene.issued, scene.placed, scene.waiting, scene.told, ?_⟩
      intro u member d flying work until_ stage
      rcases List.mem_or_eq_of_mem_set member with old | rfl
      · exact scene.work u old d flying work until_ stage
      · rcases inFlight d flying with before | fresh
        · exact scene.work t (List.mem_of_getElem? station) d before work until_ stage
        · rw [stage] at fresh
          cases fresh
    · exact sound
  · exact sound

theorem accept_sound (sound : x.Sound) (topic message : String) : (x.accept topic message).Sound := by
  unfold accept
  split
  · exact sound.withScene rfl
  · exact sound

theorem go_sound (sound : x.Sound) {i k : Nat}
    (unforged : ∀ t d, x.stations[i]? = some t → t.worker.inFlight[k]? = some d → x.Unforged d.message) :
    (x.go i k).Sound := by
  unfold go
  split
  · rename_i t station
    split
    · rename_i s worker ended went
      obtain ⟨d, found, rfl, inFlight⟩ := Worker.goAt?_cases went
      have here := List.mem_of_getElem? station
      have honest := honest_of_unforged sound.faithful (unforged t d station found)
      have stands : Delivery.Stands d.message (fun s w => Justified x.platform x.made s.env w) x.scene d :=
        ⟨rfl, fun work until_ stage => sound.work t here d (List.mem_of_getElem? found) work until_ stage⟩
      have before : Follows x.platform x.made x.scene.env x.scene :=
        ⟨sound.faithful, rfl, rfl, ⟨[], (List.append_nil _).symm⟩, Nat.le_refl _⟩
      have kept := Delivery.go_kept (c := t.worker.consumer) (n := t.worker.stats)
        (handler_keeps honest t.role) stands before
      have after := kept.holds
      refine ⟨after.faithful, sound.distinct, ?_, sound.placed, ?_, ?_, ?_⟩
      · intro c member n serial
        exact Nat.lt_of_lt_of_le (sound.issued c member n serial) after.serial
      · intro w member
        exact sound.waiting w (after.waiters ▸ member)
      · intro e member body reply
        obtain ⟨more, log⟩ := after.invocations
        obtain ⟨c, found, named, answered⟩ := sound.told e (after.ended ▸ member) body reply
        dsimp only
        rw [log]
        exact ⟨c, found, named, answered.later more⟩
      · intro u member d' flying work until_ stage
        rcases List.mem_or_eq_of_mem_set member with old | rfl
        · exact (sound.work u old d' flying work until_ stage).later after.invocations
        · rcases inFlight d' flying with old | going
          · exact (sound.work t here d' old work until_ stage).later after.invocations
          · exact (kept.stands d' going).work work until_ stage
    · exact sound
  · exact sound

/-! ### Runs -/

theorem enlist_idle (bus : Bus) (consumers : List (Role × Consumer)) :
    ∀ t ∈ (Exchange.enlist bus consumers).2, t.worker.inFlight = [] := by
  induction consumers generalizing bus with
  | nil => nofun
  | cons first rest ih =>
    obtain ⟨role, c⟩ := first
    unfold Exchange.enlist
    split
    · rename_i next _
      intro t member
      rcases List.mem_cons.mp member with rfl | later
      · rfl
      · exact ih next t later
    · exact ih bus

theorem start_sound (client : Client) (platform : Platform) (consumers : List (Role × Consumer))
    (hash : String → UInt64) :
    (start client platform consumers hash).Sound := by
  refine ⟨⟨create_valid _ _, nofun, ?_, nofun⟩, List.Pairwise.nil, nofun, nofun, nofun, nofun, ?_⟩
  · intro e member
    have empty : e ∈ (create standardShards hash).entries := member
    rw [entries_create] at empty
    cases empty
  · intro t member d inFlight
    rw [enlist_idle .empty consumers t member] at inFlight
    cases inFlight

theorem step_sound (sound : x.Sound) (act : Act) (admitted : x.Admits act) : (x.step act).Sound := by
  cases act with
  | place name id request => exact place_sound sound request admitted
  | publish i => exact publish_sound sound i
  | withdraw i => exact withdraw_sound sound i
  | look w => exact look_sound sound w
  | leave serial => exact leave_sound sound serial
  | sweep => exact sound.withRegistry (sweep_lessens sound.faithful.valid x.scene.now)
  | cancel id => exact sound.withRegistry (cancel_lessens sound.faithful.valid id)
  | reaper reaper? => exact sound.withDesk (.refl sound.faithful.valid) sound.waiting sound.told
  | collect => exact sound.withDesk (.refl sound.faithful.valid) sound.waiting nofun
  | take i => exact take_sound sound i
  | go i k => exact go_sound sound admitted
  | accept topic message => exact accept_sound sound topic message
  | pass time => exact sound.withScene rfl
  | stop => exact sound.withScene rfl

theorem reachable_sound (sound : x.Sound) (run : Reachable x y) : y.Sound := by
  induction run with
  | start => exact sound
  | step act admitted _ ih => exact step_sound ih act admitted

theorem step_sides (x : Relay) (act : Act) :
    (x.step act).client = x.client ∧ (x.step act).platform = x.platform := by
  cases act with
  | place name id request =>
    dsimp only [step]
    unfold place
    split
    · exact ⟨rfl, rfl⟩
    · exact ⟨rfl, rfl⟩
  | publish i =>
    dsimp only [step]
    unfold publish
    split
    · dsimp only
      split
      · exact ⟨rfl, rfl⟩
      · exact ⟨rfl, rfl⟩
    · exact ⟨rfl, rfl⟩
  | withdraw i =>
    dsimp only [step]
    unfold withdraw
    split
    · exact ⟨rfl, rfl⟩
    · exact ⟨rfl, rfl⟩
  | look w =>
    dsimp only [step]
    unfold look
    split
    · exact ⟨rfl, rfl⟩
    · exact ⟨rfl, rfl⟩
  | leave serial =>
    dsimp only [step]
    unfold leave
    split
    · exact ⟨rfl, rfl⟩
    · exact ⟨rfl, rfl⟩
  | take i =>
    dsimp only [step]
    unfold take
    split
    · split
      · exact ⟨rfl, rfl⟩
      · exact ⟨rfl, rfl⟩
    · exact ⟨rfl, rfl⟩
  | go i k =>
    dsimp only [step]
    unfold go
    split
    · split
      · exact ⟨rfl, rfl⟩
      · exact ⟨rfl, rfl⟩
    · exact ⟨rfl, rfl⟩
  | accept topic message =>
    dsimp only [step]
    unfold accept
    split
    · exact ⟨rfl, rfl⟩
    · exact ⟨rfl, rfl⟩
  | sweep | cancel _ | reaper _ | collect | pass _ | stop => exact ⟨rfl, rfl⟩

theorem reachable_sides (run : Reachable x y) : y.client = x.client ∧ y.platform = x.platform := by
  induction run with
  | start => exact ⟨rfl, rfl⟩
  | @step y act _ _ ih =>
    obtain ⟨client, platform⟩ := step_sides y act
    exact ⟨client.trans ih.1, platform.trans ih.2⟩

/-- Whatever happens in whatever order, a caller that is told a reply is told what came of an outbound
call that was made for its own request: with its URI, its payload and the context of its organization. -/
theorem told_own_reply {client : Client} {platform : Platform} {consumers : List (Role × Consumer)}
    {hash : String → UInt64} (run : Reachable (start client platform consumers hash) x) {c : ForwardedCall}
    (made : c ∈ x.made) {e : Ended} (ended : e ∈ x.desk.ended) (own : e.name = c.name) {body : String}
    (told : e.ending.forwarded = .ok body) :
    ∃ context, platform.resolver.contextFor (c.request.organization?.getD "") = .ok context ∧
      ∃ earlier i later, x.scene.env.invocations = earlier ++ i :: later ∧ i.id = c.id ∧
        i.call.uri = callUri platform.endpoint c.request.context ∧ i.call.payload = c.request.payload ∧
        i.call.context = context ∧ (platform.transport (earlier.map (·.call)) i.call).result = .ok body := by
  have sound := reachable_sound (start_sound client platform consumers hash) run
  have side : x.platform = platform := (reachable_sides run).2
  have reply : e.ending = .reply body := by
    cases same : e.ending with
    | reply text =>
      rw [same] at told
      exact congrArg Ending.reply (Except.ok.inj told)
    | timedOut =>
      rw [same] at told
      cases told
    | cancelled =>
      rw [same] at told
      cases told
  obtain ⟨d, found, named, answered⟩ := sound.told e ended body reply
  obtain rfl := sound.eq_of_name found made (named.trans own)
  obtain ⟨d', found', same, context, resolved, invoked⟩ := answered
  obtain rfl := sound.eq_of_id found' found same
  rw [side] at resolved invoked
  exact ⟨context, resolved, invoked⟩

/-! ### A loopback -/

theorem go_fresh {i k : Nat} {t : Station} {d : Delivery CallWork} (station : x.stations[i]? = some t)
    (found : t.worker.inFlight[k]? = some d) (fresh : d.stage = .fresh)
    (done : ((t.role.handler x.client x.platform).start x.scene d.message).2 = .done .processed) :
    x.go i k = { x with
      scene := ((t.role.handler x.client x.platform).start x.scene d.message).1
      stations := x.stations.set i { t with worker := { t.worker with
        inFlight := t.worker.inFlight.eraseIdx k
        stats := { t.worker.stats with processed := t.worker.stats.processed + 1 } } } } := by
  unfold go
  rw [station]
  dsimp only
  rw [Worker.goAt?_fresh found fresh done]

namespace Loopback

deriving instance DecidableEq for CallWork
deriving instance DecidableEq for Station

/-- It gives every content the same token. -/
def signer : Signer where
  algorithm := ⟨.sha256, .rsa⟩
  bits := 0
  signBytes _ := some [1]
  verifyBytes _ signature := signature = [1]

def client : Client := ⟨signer, "requests", ⟨1000, []⟩⟩

def platform : Platform where
  signer
  resolver := .ofDefault ⟨[], none, none, .standard⟩
  endpoint := "https://host"
  repliesTopic := "replies"
  callTimeout := 1000
  transport _ call := ⟨0, .ok call.payload⟩

def consumer (topic : String) : Consumer :=
  ⟨topic, ".DLT", 1, .standard⟩

def consumers : List (Role × Consumer) :=
  [(.requests, consumer "requests"), (.replies, consumer "replies")]

def call : ForwardedCall := ⟨"a", ⟨"1", by decide, by decide⟩, ⟨"ctx", "one", none⟩, some 0⟩

def request : Request := { Client.request call.id call.request with signature := "01" }

def reply : Reply := ⟨call.id, "one", "01"⟩

def idle (topic : String) : Worker CallWork :=
  .create (consumer topic)

def taken (topic message : String) : Worker CallWork :=
  { idle topic with inFlight := [.fresh (consumer topic) message], taken := 1 }

theorem taken_inFlight (topic message : String) :
    (taken topic message).inFlight[0]? = some (.fresh (consumer topic) message) :=
  rfl

def handled (topic : String) : Worker CallWork :=
  { idle topic with taken := 1, stats := ⟨1, 0, 0, 0⟩ }

def requested : Relay :=
  (((start client platform consumers mix).place call.name call.id call.request).publish 0).take 0

def answered : Relay :=
  { requested with
    scene := (requested.platform.start requested.scene request.encode).1
    stations := [⟨.requests, handled "requests"⟩, ⟨.replies, idle "replies"⟩] }

def replied : Relay :=
  answered.take 1

def resolved : Relay :=
  { replied with
    scene := (Replies.handle replied.client.signer replied.scene reply.encode).1
    stations := [⟨.requests, handled "requests"⟩, ⟨.replies, handled "replies"⟩] }

def waiter : Waiter := ⟨call.name, ⟨call.id.text, 0, 1000⟩, 1000⟩

def told : Relay :=
  resolved.look waiter

theorem requested_stations : requested.stations =
    [⟨.requests, taken "requests" request.encode⟩, ⟨.replies, idle "replies"⟩] := by
  decide +kernel

theorem replied_stations : replied.stations =
    [⟨.requests, handled "requests"⟩, ⟨.replies, taken "replies" reply.encode⟩] := by
  decide +kernel

theorem requested_go : requested.go 0 0 = answered := by
  have station : requested.stations[0]? = some ⟨.requests, taken "requests" request.encode⟩ := by
    rw [requested_stations]
    rfl
  rw [go_fresh station (taken_inFlight ..) rfl (by decide +kernel), requested_stations]
  rfl

theorem replied_go : replied.go 1 0 = resolved := by
  have station : replied.stations[1]? = some ⟨.replies, taken "replies" reply.encode⟩ := by
    rw [replied_stations]
    rfl
  rw [go_fresh station (taken_inFlight ..) rfl (by decide +kernel), replied_stations]
  rfl

theorem requested_unforged : requested.Unforged request.encode := by
  constructor
  · intro r read _
    rw [Request.decode_encode (by decide)] at read
    obtain rfl := Except.ok.inj read
    decide +kernel
  · intro r read verified
    have refused : (Reply.decode request.encode).toOption.any requested.client.signer.verify = false := by
      decide +kernel
    rw [read] at refused
    exact absurd (verified.symm.trans refused) nofun

theorem replied_unforged : replied.Unforged reply.encode := by
  constructor
  · intro r read _
    have refused : (Request.decode reply.encode).toOption = none := by decide +kernel
    rw [read] at refused
    cases refused
  · intro r read _
    rw [Reply.decode_encode (by decide)] at read
    obtain rfl := Except.ok.inj read
    decide +kernel

theorem requested_reachable : Reachable (start client platform consumers mix) requested := by
  have admitted : (start client platform consumers mix).Admits (.place call.name call.id call.request) := by
    intro c member
    cases member
  have placed : Reachable (start client platform consumers mix)
      ((start client platform consumers mix).place call.name call.id call.request) :=
    .step (.place call.name call.id call.request) admitted .start
  exact .step (.take 0) trivial (.step (.publish 0) trivial placed)

theorem resolved_reachable : Reachable (start client platform consumers mix) resolved := by
  have answered : Reachable (start client platform consumers mix) answered := by
    rw [← requested_go]
    refine .step (.go 0 0) ?_ requested_reachable
    intro t d station found
    rw [requested_stations] at station
    obtain rfl := Option.some.inj station
    obtain rfl := Option.some.inj found
    exact requested_unforged
  have replied : Reachable (start client platform consumers mix) replied := .step (.take 1) trivial answered
  rw [← replied_go]
  refine .step (.go 1 0) ?_ replied
  intro t d station found
  rw [replied_stations] at station
  obtain rfl := Option.some.inj station
  obtain rfl := Option.some.inj found
  exact replied_unforged

end Loopback

theorem told_own_reply_of_loopback :
    Reachable (start Loopback.client Loopback.platform Loopback.consumers mix) Loopback.told ∧
      ⟨"a", .reply "one", 0⟩ ∈ Loopback.told.desk.ended ∧
      ∃ context, Loopback.platform.resolver.contextFor "" = .ok context ∧
        ∃ earlier i later, Loopback.told.scene.env.invocations = earlier ++ i :: later ∧
          i.id = Loopback.call.id ∧ i.call.uri = callUri "https://host" "ctx" ∧ i.call.payload = "one" ∧
          i.call.context = context ∧ (Loopback.platform.transport (earlier.map (·.call)) i.call).result =
            .ok "one" := by
  have run : Reachable (start Loopback.client Loopback.platform Loopback.consumers mix) Loopback.told :=
    .step (.look Loopback.waiter) trivial Loopback.resolved_reachable
  have made : Loopback.call ∈ Loopback.told.made := by decide +kernel
  have ended : ⟨"a", .reply "one", 0⟩ ∈ Loopback.told.desk.ended := by decide +kernel
  exact ⟨run, ended, told_own_reply run made ended rfl rfl⟩

end SoapRelay.Relay
