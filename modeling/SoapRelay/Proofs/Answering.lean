import SoapRelay.Proofs.Attempts
import SoapRelay.Proofs.Bus
import SoapRelay.Proofs.Noting
import SoapRelay.Proofs.Platform
import SoapRelay.Proofs.Relay
import SoapRelay.Proofs.Signed

/-!
# One request, at most one reply

Whatever calls come to and whatever else happens between the moments of a delivery, a request message leads
to as many calls as there may be attempts, and to a reply exactly if it ends as processed. What the platform
side does at one moment is said once; over the attempts at a message it follows from a plan.
-/

namespace SoapRelay

/-! ### What comes of one moment -/

namespace Platform

variable {p : Platform} {s : Scene Traffic} {w : CallWork} {message : String}

/-- A message is the signed reply to a call that was answered. -/
def Reports (p : Platform) (w : CallWork) (posted : String) : Prop :=
  ∃ response token, w.result = .ok response ∧
    p.signer.token? (⟨w.id, response, ""⟩ : Reply).unsigned = some token ∧
    posted = (⟨w.id, response, token⟩ : Reply).encode

/-- The messages that come to the topic of the replies, and the calls, which were all made before. -/
theorem Concludes.gains {result : Scene Traffic × Outcome} (concludes : p.Concludes s w result) :
    result.1.env.invocations = s.env.invocations ∧ ∃ posted,
      (∀ topic, s.bus.Gains result.1.bus topic (if topic = p.repliesTopic then posted else [])) ∧
        (result.2 = .processed → ∃ m, posted = [m] ∧ p.Reports w m) ∧ (result.2 ≠ .processed → posted = []) := by
  have quiet : ∀ topic, s.bus.Gains s.bus topic (if topic = p.repliesTopic then [] else []) := by
    intro topic
    rw [ite_self]
    exact .refl ..
  cases concludes with
  | @replied response token bus answered signed accepted =>
    refine ⟨rfl, _, Bus.gains_publish? accepted, fun _ => ⟨_, rfl, response, token, answered, signed, rfl⟩, ?_⟩
    exact fun fails => absurd rfl fails
  | unheard answered signed fails => exact ⟨rfl, [], quiet, fun processed => absurd processed fails, fun _ => rfl⟩
  | failed fails => exact ⟨rfl, [], quiet, fun processed => absurd processed fails, fun _ => rfl⟩

end Platform

/-! ### A handler in the world -/

/-- One moment of a handler: the scene before and after it. -/
structure Visit (σ : Type) where
  before : Scene σ
  after : Scene σ

section

variable {σ κ : Type}

def Scene.watched (s : Scene σ) (log : List (Visit σ)) : Scene (σ × List (Visit σ)) :=
  ⟨s.now, s.bus, s.stopping, (s.env, log)⟩

/-- The handler in a world where anything may happen before each of its moments. They are written down. -/
def Handler.amid (h : Handler σ κ) (world : List (Visit σ) → Scene σ → Scene σ) :
    Handler (σ × List (Visit σ)) κ where
  start s message :=
    let before := world s.env.2 (s.seen Prod.fst)
    ((h.start before message).1.watched (s.env.2 ++ [⟨before, (h.start before message).1⟩]),
      (h.start before message).2)
  finish s work :=
    let before := world s.env.2 (s.seen Prod.fst)
    ((h.finish before work).1.watched (s.env.2 ++ [⟨before, (h.finish before work).1⟩]),
      (h.finish before work).2)

theorem Handler.amid_shows (h : Handler σ κ) : (h.amid fun _ s => s).Shows Prod.fst h :=
  ⟨fun _ _ => rfl, fun _ _ => rfl⟩

end

namespace Visit

/-- The calls that were made at a moment. -/
def invoked (v : Visit Traffic) : List Invocation :=
  v.after.env.invocations.drop v.before.env.invocations.length

/-- What the transport answered to them. -/
def results (p : Platform) (v : Visit Traffic) : List (Except CallError String) :=
  v.invoked.map fun i => (p.transport v.before.env.calls i.call).result

/-- The messages that came to a topic at a moment. -/
def posted {σ : Type} (topic : String) (v : Visit σ) : List String :=
  v.before.bus.added v.after.bus topic

end Visit

/-! ### Over all attempts -/

namespace Platform

variable {p : Platform} {c : Consumer} {signer : Signer} {message : String} {limit calls more : Nat}
  {s : Scene (Traffic × List (Visit Traffic))} {posted : List String} {v : Visit Traffic}

/-- The calls and the replies of all moments, and that nothing else has come to any topic. -/
structure Tally (p : Platform) (visits : List (Visit Traffic)) (calls : Nat) (posted : List String) : Prop where
  calls : (visits.flatMap Visit.invoked).length ≤ calls
  posted : visits.flatMap (Visit.posted p.repliesTopic) = posted
  gains : ∀ v ∈ visits, ∀ topic,
    v.before.bus.Gains v.after.bus topic (if topic = p.repliesTopic then v.posted topic else [])

/-- A reply that says under the id of the request what the last call came to, and that is properly signed. -/
def Answers (p : Platform) (signer : Signer) (message : String) (visits : List (Visit Traffic)) (posted : String) :
    Prop :=
  ∃ request reply, Request.decode message = .ok request ∧ Reply.decode posted = .ok reply ∧
    reply.id = request.id ∧ (visits.flatMap (Visit.results p)).getLast? = some (.ok reply.response) ∧
    signer.verify reply = true

/-- The bus once the message is done with: the one that the last moment left, with the message itself passed on
if it is a dead letter. -/
def Leaves (c : Consumer) (message : String) (how : Disposition) (left bus : Bus) : Prop :=
  if how = .deadLettered then left.publish? c.deadLetterTopic message = some bus else bus = left

/-- What is known of the moments so far. -/
structure Stands (p : Platform) (s : Scene (Traffic × List (Visit Traffic))) (calls : Nat) (posted : List String) :
    Prop where
  tally : p.Tally s.env.2 calls posted
  last : ∃ last, s.env.2.getLast? = some last ∧ s.bus = last.after.bus

/-- The work under way is for the request in the message, and is what the last call came to. -/
structure Serves (p : Platform) (message : String) (visits : List (Visit Traffic)) (w : CallWork) : Prop where
  request : ∃ request, Request.decode message = .ok request ∧ w.id = request.id
  result : (visits.flatMap (Visit.results p)).getLast? = some w.result

/-- There is no reply before the message is processed, and one call more at most for each attempt. -/
def plan (p : Platform) (c : Consumer) (signer : Signer) (message : String) (limit : Nat) :
    Delivery.Plan (Traffic × List (Visit Traffic)) CallWork where
  ready i s := i ≤ limit ∧ p.Tally s.env.2 i []
  working i s w := i ≤ limit ∧ p.Stands s (i + 1) [] ∧ p.Serves message s.env.2 w
  failed i s := i ≤ limit ∧ p.Stands s (i + 1) []
  lost s := p.Stands s (limit + 1) []
  ended how s := ∃ posted, p.Tally s.env.2 (limit + 1) posted ∧
    (∃ last, s.env.2.getLast? = some last ∧ Leaves c message how last.after.bus s.bus) ∧
    (how = .processed → ∃ m, posted = [m] ∧ p.Answers signer message s.env.2 m) ∧
    (how ≠ .processed → posted = []) ∧ (how = .abandoned → s.stopping = true)

theorem Tally.mono (tally : p.Tally s.env.2 calls posted) (fewer : calls ≤ more) : p.Tally s.env.2 more posted :=
  ⟨Nat.le_trans tally.calls fewer, tally.posted, tally.gains⟩

theorem Stands.mono (stands : p.Stands s calls posted) (fewer : calls ≤ more) : p.Stands s more posted :=
  ⟨stands.tally.mono fewer, stands.last⟩

/-- One more moment, with the calls and the messages that it added. -/
theorem Tally.next {visits : List (Visit Traffic)} {added : List String} (tally : p.Tally visits calls [])
    (few : v.invoked.length + calls ≤ more)
    (gains : ∀ topic, v.before.bus.Gains v.after.bus topic (if topic = p.repliesTopic then added else [])) :
    p.Stands (v.after.watched (visits ++ [v])) more added := by
  have here : v.posted p.repliesTopic = added := by
    have own := gains p.repliesTopic
    rw [if_pos rfl] at own
    exact own.added_eq
  have before := tally.calls
  refine ⟨⟨?_, ?_, ?_⟩, v, List.getLast?_concat .., rfl⟩
  · simp only [Scene.watched, List.flatMap_append, List.flatMap_singleton, List.length_append]
    omega
  · simp only [Scene.watched, List.flatMap_append, List.flatMap_singleton, here, tally.posted, List.nil_append]
  · intro u member topic
    rcases List.mem_append.mp member with old | new
    · exact tally.gains u old topic
    · obtain rfl := List.mem_singleton.mp new
      have own := gains topic
      by_cases replies : topic = p.repliesTopic
      · rw [if_pos replies, replies, here]
        rw [if_pos replies, replies] at own
        exact own
      · rw [if_neg replies]
        rw [if_neg replies] at own
        exact own

/-- A message that is not processed has led to no reply. -/
theorem Stands.ended (stands : p.Stands s (limit + 1) []) {bus : Bus} (how : Disposition) (unprocessed : how ≠ .processed)
    (leaves : Leaves c message how s.bus bus) (stopped : how = .abandoned → s.stopping = true) :
    (plan p c signer message limit).ended how (s.withBus bus) := by
  obtain ⟨last, isLast, same⟩ := stands.last
  refine ⟨[], stands.tally, ⟨last, isLast, ?_⟩, fun processed => absurd processed unprocessed, fun _ => rfl, stopped⟩
  rw [← same]
  exact leaves

/-- A reply that reports what the last call came to answers the request. -/
theorem Reports.answers {visits : List (Visit Traffic)} {w : CallWork} {m : String} (trusts : signer.Trusts p.signer)
    (reports : p.Reports w m) (serves : p.Serves message visits w) : p.Answers signer message visits m := by
  obtain ⟨response, token, answered, given, rfl⟩ := reports
  obtain ⟨⟨request, read, same⟩, result⟩ := serves
  refine ⟨request, ⟨w.id, response, token⟩, read, ?_, same, ?_, trusts _ token given⟩
  · exact Reply.decode_encode (Signer.separator_not_mem_token given)
  · rw [result, answered]

/-- A moment that answers a call keeps to the plan. -/
theorem Concludes.after {visits : List (Visit Traffic)} {i : Nat} {w : CallWork} {before s : Scene Traffic}
    {result : Scene Traffic × Outcome} (trusts : signer.Trusts p.signer) (bound : i ≤ limit)
    (tally : p.Tally visits calls []) (concludes : p.Concludes s w result) (bus : s.bus = before.bus)
    (few : (Visit.mk before result.1).invoked.length + calls ≤ i + 1)
    (serves : p.Serves message (visits ++ [⟨before, result.1⟩]) w) :
    (plan p c signer message limit).After i (result.1.watched (visits ++ [⟨before, result.1⟩])) (.done result.2) := by
  obtain ⟨_, posted, gains, replied, unreplied⟩ := concludes.gains
  rw [bus] at gains
  have stands := tally.next (v := ⟨before, result.1⟩) few gains
  obtain ⟨after, outcome⟩ := result
  cases outcome with
  | processed =>
    obtain ⟨m, rfl, reports⟩ := replied rfl
    obtain ⟨last, isLast, same⟩ := stands.last
    exact ⟨[m], stands.tally.mono (Nat.succ_le_succ bound), ⟨last, isLast, same⟩,
      fun _ => ⟨m, rfl, reports.answers trusts serves⟩, fun un => absurd rfl un, nofun⟩
  | retryable reason =>
    obtain rfl := unreplied nofun
    exact ⟨bound, stands⟩
  | fatal reason =>
    obtain rfl := unreplied nofun
    exact stands.mono (Nat.succ_le_succ bound)

theorem invoked_one (p : Platform) (before : Scene Traffic) (request : Request) (context : Tls.Context)
    {after : Scene Traffic} (same : after.env.invocations = (p.invoked before request context).env.invocations) :
    (Visit.mk before after).invoked = [⟨request.id, p.callFor before.now request context⟩] := by
  rw [Visit.invoked, same]
  exact List.drop_left

theorem invoked_none {before after : Scene Traffic} (same : after.env.invocations = before.env.invocations) :
    (Visit.mk before after).invoked = [] := by
  rw [Visit.invoked, same]
  exact List.drop_length

/-- A moment that makes a call has the work for it. -/
theorem serves_invoked {visits : List (Visit Traffic)} {before after : Scene Traffic} {request : Request}
    {context : Tls.Context} (screened : p.screen message = .ok (request, context))
    (same : after.env.invocations = (p.invoked before request context).env.invocations) :
    p.Serves message (visits ++ [⟨before, after⟩]) (p.workFor before request context) := by
  refine ⟨⟨request, (screen_ok screened).1, rfl⟩, ?_⟩
  simp only [List.flatMap_append, List.flatMap_singleton, Visit.results, invoked_one p before request context same,
    List.map_cons, List.map_nil, List.getLast?_concat]
  rfl

theorem start_after (trusts : signer.Trusts p.signer) {visits : List (Visit Traffic)} {i : Nat} (bound : i ≤ limit)
    (tally : p.Tally visits i []) (before : Scene Traffic) :
    (plan p c signer message limit).After i
      ((p.start before message).1.watched (visits ++ [⟨before, (p.start before message).1⟩]))
      (p.start before message).2 := by
  have begins := p.start_begins before message
  generalize p.start before message = result at begins
  have quiet : ∀ topic, before.bus.Gains before.bus topic (if topic = p.repliesTopic then [] else []) := by
    intro topic
    rw [ite_self]
    exact .refl ..
  cases begins with
  | refused fails =>
    have few : (Visit.mk before before).invoked.length + i ≤ i + 1 := by
      rw [invoked_none rfl, List.length_nil]
      omega
    have stands := tally.next few quiet
    exact Delivery.Plan.after_done fails ⟨bound, stands⟩ (stands.mono (Nat.succ_le_succ bound))
  | @waits request context until_ screened =>
    refine ⟨bound, ?_, serves_invoked screened rfl⟩
    refine tally.next (v := ⟨before, _⟩) ?_ quiet
    rw [invoked_one p before request context rfl, List.length_singleton]
    omega
  | @answered request context result screened concludes =>
    refine concludes.after trusts bound tally rfl ?_ (serves_invoked screened concludes.gains.1)
    rw [invoked_one p before request context concludes.gains.1, List.length_singleton]
    omega

theorem finish_after (trusts : signer.Trusts p.signer) {visits : List (Visit Traffic)} {i : Nat} {w : CallWork}
    (bound : i ≤ limit) (tally : p.Tally visits (i + 1) []) (serves : p.Serves message visits w)
    (before : Scene Traffic) :
    (plan p c signer message limit).After i
      ((p.finish before w).1.watched (visits ++ [⟨before, (p.finish before w).1⟩])) (.done (p.finish before w).2) := by
  have concludes := p.finish_concludes before w
  have none := invoked_none concludes.gains.1
  refine concludes.after trusts bound tally rfl ?_ ⟨serves.request, ?_⟩
  · rw [none, List.length_nil]
    omega
  · rw [List.flatMap_append, List.flatMap_singleton, Visit.results, none, List.map_nil, List.append_nil]
    exact serves.result

/-- Whatever happens between its moments, the platform side keeps to the plan. -/
theorem amid_obeys (c : Consumer) (message : String) (limit : Nat) (trusts : signer.Trusts p.signer)
    (world : List (Visit Traffic) → Scene Traffic → Scene Traffic) :
    (plan p c signer message limit).Obeyed (p.handler.amid world) c message limit where
  start _ _ ready := start_after trusts ready.1 ready.2 _
  finish _ _ _ working := finish_after trusts working.1 working.2.1.tally working.2.2 _
  again _ _ failed _ left := ⟨left, failed.2.tally⟩
  exhausted _ _ failed _ := failed.2.mono (Nat.succ_le_succ failed.1)
  abandoned _ _ failed stopping :=
    (failed.2.mono (Nat.succ_le_succ failed.1)).ended .abandoned nofun rfl fun _ => stopping
  passedOn _ _ lost accepted := lost.ended .deadLettered nofun accepted nofun
  refused _ lost _ := lost.ended .deadLetterFailed nofun rfl nofun

/-- The plan is on the moments that were written down, the bus and the order to stop. -/
theorem plan_steady (p : Platform) (c : Consumer) (signer : Signer) (message : String) (limit : Nat)
    (stopAt? : Option Nat) : (plan p c signer message limit).Steady stopAt? :=
  ⟨fun _ _ _ _ working => ⟨working.1, ⟨working.2.1.tally, working.2.1.last⟩, working.2.2⟩,
    fun _ _ _ failed => ⟨failed.1, failed.2.tally, failed.2.last⟩⟩

/-- What became of a request message, with the calls and the replies of all the moments at which it was
handled. -/
structure AnswersOnce (p : Platform) (c : Consumer) (signer : Signer) (message : String)
    (result : Scene (Traffic × List (Visit Traffic)) × ConsumerStats × Disposition) : Prop where
  calls : (result.1.env.2.flatMap Visit.invoked).length ≤ max 1 c.policy.attempts
  replies : (result.1.env.2.flatMap (Visit.posted p.repliesTopic)).length ≤ 1
  processed : (result.1.env.2.flatMap (Visit.posted p.repliesTopic)).length = 1 ↔ result.2.2 = .processed
  answers : ∀ m ∈ result.1.env.2.flatMap (Visit.posted p.repliesTopic), p.Answers signer message result.1.env.2 m
  /-- Nothing but the replies comes to any topic while the message is handled. -/
  gains : ∀ v ∈ result.1.env.2, ∀ topic,
    v.before.bus.Gains v.after.bus topic (if topic = p.repliesTopic then v.posted topic else [])
  leaves : ∃ last, result.1.env.2.getLast? = some last ∧
    Leaves c message result.2.2 last.after.bus result.1.bus
  abandoned : result.2.2 = .abandoned → result.1.stopping = true

end Platform

/-- Of a request message at most one reply comes. Whatever the calls come to, whichever publications succeed and
whenever consumers are to stop, there are as many calls as attempts at most, and there is a reply exactly if the
message ends as processed: it says what the last call came to, and it is properly signed. The world may do
anything before each moment of the handler; if it does nothing, the delivery is the one without a record. -/
theorem Platform.one_request_one_reply {p : Platform} {verifier : Signer} {privateKey otherKey : PrivateKey}
    {publicKey peerKey : PublicKey} {algorithm : SignatureAlgorithm} {expected : KeyFamily}
    (made : Signer.ofKeys privateKey peerKey algorithm expected = .ok p.signer)
    (other : Signer.ofKeys otherKey publicKey algorithm expected = .ok verifier)
    (matching : privateKey.belongsTo publicKey = true) (honours : publicKey.Honours privateKey algorithm.digest)
    (c : Consumer) (stopAt? : Option Nat) (s : Scene Traffic) (n : ConsumerStats) (message : String) :
    (∀ world, p.AnswersOnce c verifier message (c.process (p.handler.amid world) stopAt? (s.watched []) n message)) ∧
      Delivery.seen Prod.fst (c.process (p.handler.amid fun _ s => s) stopAt? (s.watched []) n message) =
        c.process p.handler stopAt? s n message := by
  refine ⟨fun world => ?_, Delivery.process_seen p.handler.amid_shows c stopAt? (s.watched []) n message⟩
  have trusts := Signer.trusts_of_keys made other matching honours
  have first : p.Tally [] 0 [] := ⟨Nat.le_refl 0, rfl, nofun⟩
  obtain ⟨_, posted, tally, leaves, processed, unprocessed, abandoned⟩ :=
    (amid_obeys c message (c.policy.attempts - 1) trusts world).process (plan_steady p c verifier message _ stopAt?)
      (s := s.watched []) (n := n) ⟨Nat.zero_le _, first⟩
  generalize c.process (p.handler.amid world) stopAt? (s.watched []) n message = result at *
  have calls : (result.1.env.2.flatMap Visit.invoked).length ≤ max 1 c.policy.attempts := by
    have attempts := tally.calls
    omega
  obtain rfl := tally.posted
  by_cases how : result.2.2 = .processed
  · obtain ⟨m, sole, answers⟩ := processed how
    refine ⟨calls, ?_, iff_of_true ?_ how, ?_, tally.gains, leaves, abandoned⟩
    · rw [sole]
      exact Nat.le_refl 1
    · rw [sole]
      rfl
    · intro m' member
      rw [sole] at member
      obtain rfl := List.mem_singleton.mp member
      exact answers
  · have none := unprocessed how
    refine ⟨calls, ?_, iff_of_false ?_ how, ?_, tally.gains, leaves, abandoned⟩
    · rw [none]
      exact Nat.zero_le 1
    · rw [none]
      exact Nat.zero_ne_one
    · rw [none]
      exact nofun

namespace Rsa.Sample

/-- Its first call runs out of time, and every later one is answered at once. -/
def platform : Platform where
  signer
  resolver := .ofDefault ⟨[], none, none, .standard⟩
  endpoint := "https://host"
  repliesTopic := "replies"
  callTimeout := 1000
  transport
    | [], _ => ⟨0, .error (.timeout (.ofMillis 1000))⟩
    | _, call => ⟨0, .ok call.payload⟩

def consumer : Consumer := ⟨"requests", ".DLT", 1, .standard⟩

/-- A request that is properly signed. -/
def message : String :=
  "1~Y3R4~b25l~009ecb612892eba036f8124f16849041e24dea15bf9564fb38385e5f0ce2" ++
    "3e8ae251b22e536d547b2d82961638f00e6c5d9bccc1aa4862a32a954bbef16e"

def handler : Handler (Traffic × List (Visit Traffic)) CallWork :=
  platform.handler.amid fun _ s => s

def begun : Scene (Traffic × List (Visit Traffic)) :=
  Scene.watched ⟨0, .empty, false, .start Registry.mix⟩ []

/-- Three seconds after the first attempt has failed. -/
def waited : Scene (Traffic × List (Visit Traffic)) :=
  (handler.start begun message).1.atTime none 3000

theorem attempts : (handler.start begun message).1.now = 0 ∧ (handler.start begun message).1.stopping = false ∧
    (handler.start begun message).2 = .done (.retryable "outbound call failed: call timed out after 1s") ∧
    (handler.start waited message).2 = .done .processed ∧
    ((handler.start waited message).1.env.2.flatMap Visit.invoked).length = 2 := by
  decide +kernel

/-- The request, while it waits for another attempt. -/
def delivery : Delivery CallWork :=
  ⟨message, { consumer.policy.start with readyAt? := some 3000 }, .backingOff 3000⟩

theorem first_attempt : Delivery.go handler consumer begun .zero (.fresh consumer message) =
    ((handler.start begun message).1, .zero, .going delivery) := by
  obtain ⟨now, running, failed, _⟩ := attempts
  have polled : consumer.policy.start.poll (handler.start begun message).1.now =
      (.pending 3000, { consumer.policy.start with readyAt? := some 3000 }) := by
    rw [now]
    decide
  rw [Delivery.go_start rfl, show (Delivery.fresh consumer message).message = message from rfl, failed]
  unfold Delivery.settle
  exact Delivery.retry_pending running polled

theorem second_attempt : Delivery.go handler consumer waited .zero delivery =
    ((handler.start waited message).1, ⟨1, 1, 0, 0⟩, .ended .processed) := by
  obtain ⟨now, running, _, processed, _⟩ := attempts
  have polled : delivery.backoff.poll waited.now = (.delay 3000, ⟨3000, 1, 1, none⟩) := by
    rw [waited, Scene.atTime, now]
    decide
  have running : waited.stopping = false := by
    rw [waited, Scene.atTime, running]
    rfl
  have again : Delivery.go handler consumer waited .zero delivery = Delivery.retry handler consumer waited .zero delivery := rfl
  rw [again, Delivery.retry_delay running polled, show delivery.message = message from rfl, processed]
  unfold Delivery.settle
  rfl

end Rsa.Sample

open Rsa.Sample in
theorem one_request_one_reply_of_sample :
    (PrivateKey.rsa key).belongsTo (.rsa key.toPublic) = true ∧
      let result := consumer.process handler none begun .zero message
      result.2 = (⟨1, 1, 0, 0⟩, .processed) ∧ (result.1.env.2.flatMap Visit.invoked).length = 2 ∧
        platform.AnswersOnce consumer signer message result := by
  have matching : (PrivateKey.rsa key).belongsTo (.rsa key.toPublic) = true := by decide +kernel
  have honours := PublicKey.honours_of_proper proper (.rsa key.toPublic) .sha256
  have run : consumer.process handler none begun .zero message =
      ((handler.start waited message).1, ⟨1, 1, 0, 0⟩, .processed) := by
    show Delivery.runFor handler consumer none 5 begun .zero (.fresh consumer message) = _
    rw [Delivery.runFor, first_attempt]
    show Delivery.runFor handler consumer none 4 waited .zero _ = _
    rw [Delivery.runFor, second_attempt]
  have once := (Platform.one_request_one_reply (p := platform) signer_made signer_made matching honours consumer none
    ⟨0, .empty, false, .start Registry.mix⟩ .zero message).1 fun _ s => s
  refine ⟨matching, congrArg Prod.snd run, ?_, once⟩
  rw [run]
  exact attempts.2.2.2.2

end SoapRelay
