import SoapRelay.Platform
import SoapRelay.Proofs.Bus

/-!
# What the platform side does at one moment

The platform side starts to handle a message, and goes on once its call was answered. How either comes out is
said here; whatever else is known of the platform side follows from it.
-/

namespace SoapRelay.Platform

variable {p : Platform} {s : Scene Traffic} {w : CallWork} {message : String}

theorem screen_ok {request : Request} {context : Tls.Context} (screened : p.screen message = .ok (request, context)) :
    Request.decode message = .ok request ∧ p.signer.verify request = true ∧
      p.resolver.contextFor request.organization = .ok context := by
  unfold screen at screened
  split at screened
  · cases screened
  · rename_i read decoded
    split at screened
    · rename_i verified
      split at screened
      · cases screened
      · rename_i found resolved
        obtain ⟨rfl, rfl⟩ := Prod.mk.inj (Except.ok.inj screened)
        exact ⟨decoded, verified, resolved⟩
    · cases screened

/-- How answering a call comes out: with a reply that the topic took, with one that it did not take, or without
one. -/
inductive Concludes (p : Platform) (s : Scene Traffic) (w : CallWork) : Scene Traffic × Outcome → Prop where
  | replied {response token : String} {bus : Bus} (answered : w.result = .ok response)
      (signed : p.signer.token? (⟨w.id, response, ""⟩ : Reply).unsigned = some token)
      (accepted : s.bus.publish? p.repliesTopic (⟨w.id, response, token⟩ : Reply).encode = some bus) :
      Concludes p s w
        ((s.withEnv (s.env.noteSigned (⟨w.id, response, token⟩ : Reply))).withBus bus, .processed)
  | unheard {response token : String} {o : Outcome} (answered : w.result = .ok response)
      (signed : p.signer.token? (⟨w.id, response, ""⟩ : Reply).unsigned = some token) (fails : o ≠ .processed) :
      Concludes p s w (s.withEnv (s.env.noteSigned (⟨w.id, response, token⟩ : Reply)), o)
  | failed {o : Outcome} (fails : o ≠ .processed) : Concludes p s w (s, o)

theorem outcome_ne_processed (e : ProcessError) : e.outcome ≠ .processed := by
  unfold ProcessError.outcome
  split
  · exact nofun
  · exact nofun

theorem finish_concludes (p : Platform) (s : Scene Traffic) (w : CallWork) : p.Concludes s w (p.finish s w) := by
  unfold finish answer
  cases answered : w.result with
  | error e => exact .failed (outcome_ne_processed _)
  | ok response =>
    dsimp only
    cases sealing : p.signer.sign? (⟨w.id, response, ""⟩ : Reply) with
    | none => exact .failed (outcome_ne_processed _)
    | some reply =>
      obtain ⟨token, signed, rfl⟩ := Option.map_eq_some_iff.mp sealing
      dsimp only
      split
      · rename_i accepted
        split at accepted
        · cases accepted
        · rename_i bus published
          obtain ⟨rfl, _⟩ := Prod.mk.inj accepted
          exact .replied answered signed published
      · rename_i failed
        split at failed
        · obtain ⟨rfl, _⟩ := Prod.mk.inj failed
          exact .unheard answered signed (outcome_ne_processed _)
        · cases failed

/-- The scene with one more call. -/
def invoked (p : Platform) (s : Scene Traffic) (request : Request) (context : Tls.Context) : Scene Traffic :=
  s.withEnv { s.env with invocations := s.env.invocations ++ [⟨request.id, p.callFor s.now request context⟩] }

/-- What comes of a call. -/
def workFor (p : Platform) (s : Scene Traffic) (request : Request) (context : Tls.Context) : CallWork :=
  ⟨request.id, (p.transport s.env.calls (p.callFor s.now request context)).result⟩

/-- How handling a message begins: it is refused, or there is a call and perhaps its answer. -/
inductive Begins (p : Platform) (s : Scene Traffic) (message : String) : Scene Traffic × Progress CallWork → Prop where
  | refused {o : Outcome} (fails : o ≠ .processed) : Begins p s message (s, .done o)
  | waits {request : Request} {context : Tls.Context} {until_ : Nat}
      (screened : p.screen message = .ok (request, context)) :
      Begins p s message (p.invoked s request context, .waiting (p.workFor s request context) until_)
  | answered {request : Request} {context : Tls.Context} {result : Scene Traffic × Outcome}
      (screened : p.screen message = .ok (request, context))
      (concludes : p.Concludes (p.invoked s request context) (p.workFor s request context) result) :
      Begins p s message (result.1, .done result.2)

theorem start_begins (p : Platform) (s : Scene Traffic) (message : String) :
    p.Begins s message (p.start s message) := by
  unfold start
  cases screened : p.screen message with
  | error e => exact .refused (outcome_ne_processed e)
  | ok result =>
    obtain ⟨request, context⟩ := result
    dsimp only
    split
    · exact .answered screened (p.finish_concludes (p.invoked s request context) (p.workFor s request context))
    · exact .waits screened

end SoapRelay.Platform
