import SoapRelay.Client
import SoapRelay.Proofs.Bus
import SoapRelay.Proofs.Entries
import SoapRelay.Proofs.Envelope
import SoapRelay.Proofs.Hex

/-!
# What placing a call does

A call that is placed is pending under its id, and its caller has the ticket. A call that is refused
leaves nothing in the registry, whatever it failed on, and so does one that is not published.
-/

namespace SoapRelay.Client

open Registry

variable {c : Client} {s : Scene Traffic} {id : CallId} {request : ForwardRequest}

/-- Apart from the registry and the bus, a call at most notes what was signed. -/
structure Notes (s s' : Scene Traffic) (content : String) : Prop where
  waiters : s'.env.desk.waiters = s.env.desk.waiters
  ended : s'.env.desk.ended = s.env.desk.ended
  invocations : s'.env.invocations = s.env.invocations
  signed : ∀ pair ∈ s'.env.signed, pair ∈ s.env.signed ∨ pair.1 = content

/-- How a call came out: refused, or placed under the next serial. -/
inductive Places (s : Scene Traffic) (id : CallId) : Scene Traffic × Except ForwardError Placed → Prop where
  | refused {s' error} (lessens : s.env.desk.registry.Lessens s'.env.desk.registry) :
      Places s id (s', .error error)
  | placed {s' p now} (issued : p.ticket.serial = s.env.desk.registry.nextSerial)
      (enters : s.env.desk.registry.Enters s'.env.desk.registry
        (id.text, ⟨p.ticket.serial, now, p.ticket.deadline⟩)) : Places s id (s', .ok p)

theorem register_notes (c : Client) (s : Scene Traffic) (signed : Request) (content : String) :
    Notes s (c.register s signed).1 content := by
  unfold register
  have same : ∀ pair ∈ s.env.signed, pair ∈ s.env.signed ∨ pair.1 = content := fun _ member => Or.inl member
  split
  · exact ⟨rfl, rfl, rfl, same⟩
  · split
    · exact ⟨rfl, rfl, rfl, same⟩
    · exact ⟨rfl, rfl, rfl, same⟩

theorem place_notes (c : Client) (s : Scene Traffic) (id : CallId) (request : ForwardRequest) :
    Notes s (c.place s id request).1 (Client.request id request).unsigned := by
  unfold place
  cases read : c.signer.sign? (Client.request id request) with
  | none => exact ⟨rfl, rfl, rfl, fun _ member => Or.inl member⟩
  | some signed =>
    obtain ⟨token, _, rfl⟩ := Option.map_eq_some_iff.mp read
    obtain ⟨waiters, ended, invocations, noted⟩ :=
      register_notes c (s.withEnv (s.env.noteSigned (Signable.withSignature (Client.request id request) token)))
        (Signable.withSignature (Client.request id request) token) (Client.request id request).unsigned
    refine ⟨waiters, ended, invocations, ?_⟩
    intro pair member
    rcases noted pair member with old | new
    · rcases List.mem_append.mp old with before | now
      · exact Or.inl before
      · obtain rfl := List.mem_singleton.mp now
        exact Or.inr rfl
    · exact Or.inr new

theorem register_places (valid : s.env.desk.registry.Valid) (signed : Request) :
    Places s signed.id (c.register s signed) := by
  unfold register
  split
  · exact .refused (.refl valid)
  · rename_i deadline _
    rcases register_cases valid.toShaped s.now signed.id deadline with
      ⟨_, _, refused, sheds⟩ | ⟨_, accepted, enters⟩
    · rw [← Prod.eta (s.env.desk.registry.register s.now signed.id deadline), refused]
      refine .refused (sheds.lessens valid ?_)
      intro serial text member
      cases member
    · rw [← Prod.eta (s.env.desk.registry.register s.now signed.id deadline), accepted]
      exact .placed rfl enters

theorem place_places (valid : s.env.desk.registry.Valid) : Places s id (c.place s id request) := by
  unfold place
  cases read : c.signer.sign? (Client.request id request) with
  | none => exact .refused (.refl valid)
  | some signed =>
    obtain ⟨token, _, rfl⟩ := Option.map_eq_some_iff.mp read
    have registered := register_places (c := c)
      (s := s.withEnv (s.env.noteSigned (Signable.withSignature (Client.request id request) token)))
      valid (Signable.withSignature (Client.request id request) token)
    dsimp only
    generalize c.register _ _ = result at registered ⊢
    cases registered with
    | refused lessens => exact .refused lessens
    | placed issued enters => exact .placed issued enters

theorem place_bus (c : Client) (s : Scene Traffic) (id : CallId) (request : ForwardRequest) :
    (c.place s id request).1.bus = s.bus := by
  unfold place
  split
  · rfl
  · unfold register
    split
    · rfl
    · split
      · rfl
      · rfl

/-- Publishing a call leaves its caller's ticket alone, or gives it up. -/
theorem publish_cases (c : Client) (s : Scene Traffic) (p : Placed) :
    (c.publish s p).2 = .ok p.ticket ∧ (c.publish s p).1.env = s.env ∨
      (∃ error, (c.publish s p).2 = .error error) ∧
        (c.publish s p).1.env = s.env.withRegistry (s.env.desk.registry.release p.ticket) := by
  unfold publish
  split
  · exact Or.inr ⟨⟨_, rfl⟩, rfl⟩
  · exact Or.inl ⟨rfl, rfl⟩

/-! ### Calls that are published -/

/-- A request can be signed, its deadline told and its id taken, and there is a topic for it. -/
structure Ready (c : Client) (s : Scene Traffic) (id : CallId) (request : ForwardRequest) : Prop where
  signs : (c.signer.sign? (Client.request id request)).isSome
  timely : (Clock.after? s.now (c.deadlines.waitFor request.context request.payload)).isSome
  new : ∀ p, (id.text, p) ∉ s.env.desk.registry.entries
  accepts : (s.bus.topic c.requestsTopic).subscription ≠ .gone

/-- A request that says what a call asks for, under an id. -/
structure Carries (signed : Request) (id : CallId) (request : ForwardRequest) : Prop where
  id : signed.id = id
  context : signed.context = request.context
  payload : signed.payload = request.payload
  organization : signed.organization? = request.organization?

theorem carries_of_sign? {signed : Request} (made : c.signer.sign? (Client.request id request) = some signed) :
    Carries signed id request := by
  obtain ⟨token, _, rfl⟩ := Option.map_eq_some_iff.mp made
  exact ⟨rfl, rfl, rfl, rfl⟩

/-- A token is hexadecimal text, so a signed request is read back as it is. -/
theorem separator_not_mem_of_sign? {signed : Request}
    (made : c.signer.sign? (Client.request id request) = some signed) : separator ∉ signed.signature.toList := by
  obtain ⟨token, given, rfl⟩ := Option.map_eq_some_iff.mp made
  exact Signer.separator_not_mem_token given

theorem register_new {signed : Request} {deadline : Nat} (shaped : s.env.desk.registry.Shaped)
    (new : ∀ p, (signed.id.text, p) ∉ s.env.desk.registry.entries)
    (timely : Clock.after? s.now (c.deadlines.waitFor signed.context signed.payload) = some deadline) :
    c.register s signed =
      (s.withEnv (s.env.withRegistry (s.env.desk.registry.register s.now signed.id deadline).2),
        .ok ⟨⟨signed.id.text, s.env.desk.registry.nextSerial, deadline⟩, signed⟩) := by
  unfold register
  rw [timely]
  dsimp only
  rcases register_cases shaped s.now signed.id deadline with ⟨p, pending, _⟩ | ⟨_, accepted, _⟩
  · exact absurd pending (new p)
  · rw [← Prod.eta (s.env.desk.registry.register s.now signed.id deadline), accepted]

theorem publish_accepted {p : Placed} {bus : Bus}
    (accepted : s.bus.publish? c.requestsTopic p.request.encode = some bus) :
    c.publish s p = (s.withBus bus, .ok p.ticket) := by
  rw [publish, accepted]

theorem forward_ready (shaped : s.env.desk.registry.Shaped) (ready : c.Ready s id request) :
    ∃ signed deadline bus, c.signer.sign? (Client.request id request) = some signed ∧
      Clock.after? s.now (c.deadlines.waitFor request.context request.payload) = some deadline ∧
      (∀ topic, bus.topic topic = if topic = c.requestsTopic then
        (s.bus.topic c.requestsTopic).accept signed.encode else s.bus.topic topic) ∧
      c.forward s id request =
        ((s.withEnv ((s.env.noteSigned signed).withRegistry
            (s.env.desk.registry.register s.now id deadline).2)).withBus bus,
          .ok ⟨id.text, s.env.desk.registry.nextSerial, deadline⟩) := by
  obtain ⟨signed, signs⟩ := Option.isSome_iff_exists.mp ready.signs
  obtain ⟨deadline, timely⟩ := Option.isSome_iff_exists.mp ready.timely
  obtain ⟨bus, accepted, topics⟩ := Bus.exists_publish? ready.accepts signed.encode
  refine ⟨signed, deadline, bus, signs, timely, topics, ?_⟩
  obtain ⟨rfl, context, payload, _⟩ := carries_of_sign? signs
  rw [← context, ← payload] at timely
  have registered := register_new (s := s.withEnv (s.env.noteSigned signed)) shaped ready.new timely
  unfold forward place
  rw [signs]
  dsimp only
  rw [registered]
  exact publish_accepted accepted

end SoapRelay.Client
