import SoapRelay.Proofs.Delivery
import SoapRelay.Proofs.Envelope
import SoapRelay.Proofs.Forward
import SoapRelay.Proofs.Platform
import SoapRelay.Relay

/-!
# Where a reply comes from

Everything that carries the text of a reply, a signature, work under way, an ending, what a caller was
told, goes back to an outbound call that was made for the request of the very caller. The main
statement is that a caller only ever gets its own reply, in whatever order both sides act.
-/

namespace SoapRelay

open Registry

variable {platform : Platform} {made : List ForwardedCall} {t u : Traffic} {id : CallId} {body : String}

/-! ### Answered calls -/

/-- An outbound call was made for the call under an id, with its URI, its payload and the context of
its organization, and the transport answered it with a text. -/
def Answered (platform : Platform) (made : List ForwardedCall) (log : List Invocation) (id : CallId)
    (body : String) : Prop :=
  ∃ c ∈ made, c.id = id ∧ ∃ context,
    platform.resolver.contextFor (c.request.organization?.getD "") = .ok context ∧
      ∃ earlier i later, log = earlier ++ i :: later ∧ i.id = id ∧
        i.call.uri = callUri platform.endpoint c.request.context ∧ i.call.payload = c.request.payload ∧
        i.call.context = context ∧ (platform.transport (earlier.map (·.call)) i.call).result = .ok body

theorem Answered.later {log : List Invocation} (answered : Answered platform made log id body)
    (more : List Invocation) : Answered platform made (log ++ more) id body := by
  obtain ⟨c, member, same, context, resolved, earlier, i, later, rfl, found⟩ := answered
  refine ⟨c, member, same, context, resolved, earlier, i, later ++ more, ?_, found⟩
  rw [List.append_assoc, List.cons_append]

theorem Answered.more {log : List Invocation} (answered : Answered platform made log id body)
    (c : ForwardedCall) : Answered platform (made ++ [c]) log id body := by
  obtain ⟨d, member, found⟩ := answered
  exact ⟨d, List.mem_append_left _ member, found⟩

/-- What is known of work under way. -/
def Justified (platform : Platform) (made : List ForwardedCall) (t : Traffic) (w : CallWork) : Prop :=
  ∀ body, w.result = .ok body → Answered platform made t.invocations w.id body

theorem Justified.later {w : CallWork} (justified : Justified platform made t w)
    (log : ∃ more, u.invocations = t.invocations ++ more) : Justified platform made u w := by
  intro body result
  obtain ⟨more, log⟩ := log
  rw [log]
  exact (justified body result).later more

theorem Justified.more {w : CallWork} (justified : Justified platform made t w)
    (same : u.invocations = t.invocations) (c : ForwardedCall) : Justified platform (made ++ [c]) u w := by
  intro body result
  rw [same]
  exact (justified body result).more c

/-- Every signature, every pending call and every reply that is left goes back to a call that was made. -/
structure Faithful (platform : Platform) (made : List ForwardedCall) (t : Traffic) : Prop where
  valid : t.desk.registry.Valid
  signed : ∀ pair ∈ t.signed, (∃ c ∈ made, pair.1 = (Client.request c.id c.request).unsigned) ∨
    ∃ reply : Reply, pair.1 = reply.unsigned ∧
      Answered platform made t.invocations reply.id reply.response
  pending : ∀ e ∈ t.desk.registry.entries, ∃ c ∈ made, c.id.text = e.1 ∧ c.serial? = some e.2.serial
  left : ∀ serial body, (serial, .reply body) ∈ t.desk.registry.endings →
    ∃ c ∈ made, c.serial? = some serial ∧ Answered platform made t.invocations c.id body

theorem Faithful.lessens {r : Registry} (faithful : Faithful platform made t)
    (lessens : t.desk.registry.Lessens r) (same : u.desk.registry = r) (signed : u.signed = t.signed)
    (invocations : u.invocations = t.invocations) : Faithful platform made u := by
  subst same
  refine ⟨lessens.valid, ?_, ?_, ?_⟩
  · rw [signed, invocations]
    exact faithful.signed
  · intro e member
    exact faithful.pending e (lessens.entries e member)
  · intro serial body member
    rw [invocations]
    exact faithful.left serial body (lessens.replies serial body member)

/-! ### The platform side -/

theorem Faithful.sign (faithful : Faithful platform made t) (reply : Reply) (token : String)
    (answered : Answered platform made t.invocations reply.id reply.response) :
    Faithful platform made { t with signed := t.signed ++ [(reply.unsigned, token)] } := by
  refine ⟨faithful.valid, ?_, faithful.pending, faithful.left⟩
  intro pair member
  rcases List.mem_append.mp member with old | new
  · exact faithful.signed pair old
  · obtain rfl := List.mem_singleton.mp new
    exact Or.inr ⟨reply, rfl, answered⟩

theorem Faithful.invoke (faithful : Faithful platform made t) (i : Invocation) :
    Faithful platform made { t with invocations := t.invocations ++ [i] } := by
  refine ⟨faithful.valid, ?_, faithful.pending, ?_⟩
  · intro pair member
    rcases faithful.signed pair member with request | ⟨reply, same, answered⟩
    · exact Or.inl request
    · exact Or.inr ⟨reply, same, answered.later [i]⟩
  · intro serial body member
    obtain ⟨c, found, own, answered⟩ := faithful.left serial body member
    exact ⟨c, found, own, answered.later [i]⟩

/-- A call was made, whether or not it was refused. -/
theorem Faithful.place {s s' : Scene Traffic} {c : ForwardedCall} (faithful : Faithful platform made s.env)
    (notes : Client.Notes s s' (Client.request c.id c.request).unsigned)
    (valid : s'.env.desk.registry.Valid)
    (entries : ∀ e ∈ s'.env.desk.registry.entries, e ∈ s.env.desk.registry.entries ∨
      c.id.text = e.1 ∧ c.serial? = some e.2.serial)
    (replies : ∀ serial text, (serial, .reply text) ∈ s'.env.desk.registry.endings →
      (serial, .reply text) ∈ s.env.desk.registry.endings) : Faithful platform (made ++ [c]) s'.env := by
  have newest : c ∈ made ++ [c] := List.mem_append_right _ (List.mem_singleton_self c)
  refine ⟨valid, ?_, ?_, ?_⟩
  · intro pair member
    rw [notes.invocations]
    rcases notes.signed pair member with old | new
    · rcases faithful.signed pair old with ⟨d, found, same⟩ | ⟨reply, same, answered⟩
      · exact Or.inl ⟨d, List.mem_append_left _ found, same⟩
      · exact Or.inr ⟨reply, same, answered.more c⟩
    · exact Or.inl ⟨c, newest, new⟩
  · intro e member
    rcases entries e member with old | ⟨named, own⟩
    · obtain ⟨d, found, same⟩ := faithful.pending e old
      exact ⟨d, List.mem_append_left _ found, same⟩
    · exact ⟨c, newest, named, own⟩
  · intro serial body member
    rw [notes.invocations]
    obtain ⟨d, found, own, answered⟩ := faithful.left serial body (replies serial body member)
    exact ⟨d, List.mem_append_left _ found, own, answered.more c⟩

/-! ### Handling a message -/

/-- What is known of a message before it is handled: a request in it that is taken for properly signed
was made, and a reply in it is one to a call that was answered. -/
structure Honest (client : Client) (platform : Platform) (made : List ForwardedCall) (t : Traffic)
    (message : String) : Prop where
  request : ∀ r, Request.decode message = .ok r → platform.signer.verify r = true → ∃ c ∈ made,
    c.id = r.id ∧ c.request.context = r.context ∧ c.request.payload = r.payload ∧
      c.request.organization? = r.organization?
  reply : ∀ r, Reply.decode message = .ok r → client.signer.verify r = true →
    Answered platform made t.invocations r.id r.response

theorem honest_of_unforged {x : Relay} {message : String} (faithful : Faithful x.platform x.made x.scene.env)
    (unforged : x.Unforged message) : Honest x.client x.platform x.made x.scene.env message := by
  constructor
  · intro r read verified
    rcases faithful.signed _ (unforged.request r read verified) with ⟨c, member, same⟩ | ⟨reply, same, _⟩
    · obtain ⟨named, contextual, paid, organized⟩ := Request.unsigned_inj same
      exact ⟨c, member, named.symm, contextual.symm, paid.symm, organized.symm⟩
    · exact absurd same.symm (Reply.unsigned_ne_request reply r)
  · intro r read verified
    rcases faithful.signed _ (unforged.reply r read verified) with ⟨c, _, same⟩ | ⟨reply, same, answered⟩
    · exact absurd same (Reply.unsigned_ne_request r _)
    · obtain ⟨named, response⟩ := Reply.unsigned_inj same
      rw [named, response]
      exact answered

/-- Handling messages leaves the callers alone, and the log of outbound calls only grows. -/
structure Follows (platform : Platform) (made : List ForwardedCall) (t : Traffic) (s : Scene Traffic) : Prop where
  faithful : Faithful platform made s.env
  waiters : s.env.desk.waiters = t.desk.waiters
  ended : s.env.desk.ended = t.desk.ended
  invocations : ∃ more, s.env.invocations = t.invocations ++ more
  serial : t.desk.registry.nextSerial ≤ s.env.desk.registry.nextSerial

variable {s : Scene Traffic} {client : Client} {message : String} {c : Consumer}

theorem concludes_follows {w : CallWork} {result : Scene Traffic × Outcome}
    (concludes : platform.Concludes s w result) (follows : Follows platform made t s)
    (justified : Justified platform made s.env w) : Follows platform made t result.1 := by
  have sign : ∀ response token, w.result = .ok response →
      Faithful platform made (s.env.noteSigned (⟨w.id, response, token⟩ : Reply)) :=
    fun response token answered => follows.faithful.sign ⟨w.id, response, ""⟩ token (justified response answered)
  cases concludes with
  | replied answered signed accepted =>
    exact ⟨sign _ _ answered, follows.waiters, follows.ended, follows.invocations, follows.serial⟩
  | unheard answered signed fails =>
    exact ⟨sign _ _ answered, follows.waiters, follows.ended, follows.invocations, follows.serial⟩
  | failed fails => exact follows

theorem invoked_follows (follows : Follows platform made t s) (request : Request) (context : Tls.Context) :
    Follows platform made t (platform.invoked s request context) := by
  obtain ⟨more, log⟩ := follows.invocations
  refine ⟨follows.faithful.invoke ⟨request.id, platform.callFor s.now request context⟩, follows.waiters, follows.ended,
    ⟨more ++ [⟨request.id, platform.callFor s.now request context⟩], ?_⟩, follows.serial⟩
  rw [← List.append_assoc, ← log]
  rfl

/-- What comes of a call that was made for a request is known to be so. -/
theorem invoked_justified (honest : Honest client platform made t message) {request : Request} {context : Tls.Context}
    (screened : platform.screen message = .ok (request, context)) (s : Scene Traffic) :
    Justified platform made (platform.invoked s request context).env (platform.workFor s request context) := by
  obtain ⟨read, verified, resolved⟩ := Platform.screen_ok screened
  obtain ⟨c, member, named, contextual, paid, organized⟩ := honest.request request read verified
  intro body result
  refine ⟨c, member, named, context, ?_, s.env.invocations, ⟨request.id, platform.callFor s.now request context⟩, [],
    rfl, rfl, ?_, ?_, rfl, result⟩
  · rw [organized]
    exact resolved
  · rw [contextual]
    rfl
  · rw [paid]
    rfl

theorem start_follows (follows : Follows platform made t s) (honest : Honest client platform made t message) :
    Follows platform made t (platform.start s message).1 ∧
      ∀ work until_, (platform.start s message).2 = .waiting work until_ →
        Justified platform made (platform.start s message).1.env work := by
  have begins := platform.start_begins s message
  generalize platform.start s message = result at begins
  cases begins with
  | refused fails => exact ⟨follows, nofun⟩
  | waits screened =>
    refine ⟨invoked_follows follows _ _, ?_⟩
    rintro work until_ ⟨⟩
    exact invoked_justified honest screened s
  | answered screened concludes =>
    exact ⟨concludes_follows concludes (invoked_follows follows _ _) (invoked_justified honest screened s), nofun⟩

theorem requests_keep (honest : Honest client platform made t message) :
    Delivery.Keeps platform.handler c message (Follows platform made t)
      (fun s w => Justified platform made s.env w) where
  start _ before := start_follows before honest
  finish s work before justified := concludes_follows (platform.finish_concludes s work) before justified
  deadLetter _ _ before _ := ⟨before.faithful, before.waiters, before.ended, before.invocations, before.serial⟩

theorem resolve_faithful (faithful : Faithful platform made t) (now : Nat) {reply : Reply}
    (answered : Answered platform made t.invocations reply.id reply.response) :
    Faithful platform made
      (t.withRegistry (t.desk.registry.resolve now reply.id.text reply.response).2) := by
  rcases resolve_cases faithful.valid.toShaped now reply.id.text reply.response with
    ⟨p, pending, _, sheds⟩ | ⟨_, _, sheds⟩
  · refine ⟨sheds.valid faithful.valid, faithful.signed, ?_, ?_⟩
    · intro e member
      exact faithful.pending e (sheds.mem_entries.mp member).1
    · intro serial body member
      rcases sheds.mem_endings.mp member with new | ⟨old, _⟩
      · obtain ⟨rfl, same⟩ := Prod.mk.inj (List.mem_singleton.mp new)
        obtain rfl := Ending.reply.inj same
        obtain ⟨c, found, named, own⟩ := faithful.pending _ pending
        obtain same : c.id = reply.id := CallId.ext_text named
        exact ⟨c, found, own, same ▸ answered⟩
      · exact faithful.left serial body old
  · exact faithful.lessens (sheds.lessens faithful.valid nofun) rfl rfl rfl

/-- A reply with a proper signature is resolved. -/
theorem Replies.start_verified {signer : Signer} (s : Scene Traffic) {reply : Reply}
    (read : Reply.decode message = .ok reply) (verified : signer.verify reply = true) :
    (Replies.handler signer).start s message =
      (s.withEnv (s.env.withRegistry (s.env.desk.registry.resolve s.now reply.id.text reply.response).2),
        .done .processed) := by
  unfold handler handle
  dsimp only
  rw [read]
  dsimp only
  rw [if_pos verified]

theorem handle_follows (follows : Follows platform made t s) (honest : Honest client platform made t message) :
    Follows platform made t (Replies.handle client.signer s message).1 := by
  unfold Replies.handle
  split
  · exact follows
  · rename_i reply read
    split
    · rename_i verified
      obtain ⟨more, log⟩ := follows.invocations
      have answered := (honest.reply reply read verified).later more
      rw [← log] at answered
      have serial : s.env.desk.registry.nextSerial ≤
          (s.env.desk.registry.resolve s.now reply.id.text reply.response).2.nextSerial := by
        rcases resolve_cases follows.faithful.valid.toShaped s.now reply.id.text reply.response with
          ⟨_, _, _, sheds⟩ | ⟨_, _, sheds⟩
        · exact sheds.serial
        · exact sheds.serial
      exact ⟨resolve_faithful follows.faithful s.now answered, follows.waiters, follows.ended,
        follows.invocations, Nat.le_trans follows.serial serial⟩
    · exact follows

theorem replies_keep (honest : Honest client platform made t message) :
    Delivery.Keeps (Replies.handler client.signer) c message (Follows platform made t)
      (fun s w => Justified platform made s.env w) where
  start _ before := ⟨handle_follows before honest, nofun⟩
  finish _ _ before _ := before
  deadLetter _ _ before _ := ⟨before.faithful, before.waiters, before.ended, before.invocations, before.serial⟩

theorem handler_keeps (honest : Honest client platform made t message) (role : Role) :
    Delivery.Keeps (role.handler client platform) c message (Follows platform made t)
      (fun s w => Justified platform made s.env w) := by
  cases role with
  | deadLetters =>
    exact ⟨fun _ before => ⟨before, nofun⟩, fun _ _ before _ => before, fun _ _ before _ =>
      ⟨before.faithful, before.waiters, before.ended, before.invocations, before.serial⟩⟩
  | requests => exact requests_keep honest
  | replies => exact replies_keep honest

end SoapRelay
