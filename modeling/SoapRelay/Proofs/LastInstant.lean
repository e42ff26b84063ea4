import SoapRelay.Proofs.Overrides
import SoapRelay.Proofs.Serve

/-!
# Calls that break off

A configuration may give any timeout of 63 bits, but instants end where seconds of 63 bits do. The sum is
not checked before it is made, so a call whose deadline would lie behind the last instant breaks off: it is
neither refused nor registered, and nobody hears of it.
-/

namespace SoapRelay

namespace Clock

/-- The second in which a time lies, by the clock of the instants. -/
def second (now : Nat) : Nat := 1 + now / 1000

theorem after?_eq_none_iff {now seconds : Nat} :
    after? now (seconds * 1000) = none ↔ 2 ^ 63 ≤ second now + seconds := by
  have within : now + seconds * 1000 ≤ latest ↔ second now + seconds < 2 ^ 63 := by
    unfold latest second
    omega
  unfold after?
  split
  · rename_i early
    exact ⟨nofun, fun late => absurd (within.mp early) (Nat.not_lt_of_le late)⟩
  · rename_i late
    exact ⟨fun _ => Nat.le_of_not_lt fun early => late (within.mpr early), fun _ => rfl⟩

theorem after?_of_lt {now seconds : Nat} (early : second now + seconds < 2 ^ 63) :
    after? now (seconds * 1000) = some (now + seconds * 1000) := by
  cases sum : after? now (seconds * 1000) with
  | none => exact absurd (after?_eq_none_iff.mp sum) (Nat.not_le_of_lt early)
  | some instant =>
    unfold after? at sum
    split at sum
    · exact sum.symm
    · cases sum

end Clock

/-! ### The timeouts of a configuration -/

namespace Settings

open Toml (Section Value)

/-- The seconds that calls may be given: those of all calls and those of the overrides. -/
def timeouts (s : Settings) : List Nat :=
  s.calls.timeout :: s.calls.customTimeouts.map Prod.snd

/-- One of the timeouts decides each call. -/
theorem waitFor_deadlines (s : Settings) (context payload : String) :
    ∃ seconds ∈ s.timeouts, s.deadlines.waitFor context payload = seconds * 1000 := by
  have override : ∀ {fits : String × Nat → Bool} {e : String × Nat},
      s.deadlines.overrides.find? fits = some e → ∃ seconds ∈ s.timeouts, e.2 = seconds * 1000 := by
    intro fits e found
    obtain ⟨custom, member, rfl⟩ := List.mem_map.mp (List.mem_of_find?_eq_some found)
    exact ⟨custom.2, List.mem_cons_of_mem _ (List.mem_map_of_mem member), rfl⟩
  unfold Deadlines.waitFor
  split
  · rename_i named
    exact override named
  · split
    · rename_i marked
      exact override marked
    · exact ⟨s.calls.timeout, List.mem_cons_self, rfl⟩

theorem counted?_lt {e : String × Value} {custom : String × Nat} (counted : counted? e = some custom) :
    custom.2 < 2 ^ 63 := by
  obtain ⟨seconds, count, rfl⟩ := Option.map_eq_some_iff.mp counted
  exact Value.count?_lt count

theorem timeoutsIn_lt {v? : Option Value} {custom : String × Nat} (member : custom ∈ timeoutsIn v?) :
    custom.2 < 2 ^ 63 := by
  unfold timeoutsIn at member
  split at member
  · obtain ⟨e, _, counted⟩ := List.mem_filterMap.mp member
    exact counted?_lt counted
  · cases member

theorem writtenTimeouts_lt {text : String} {custom : String × Nat} (member : custom ∈ writtenTimeouts text) :
    custom.2 < 2 ^ 63 := by
  unfold writtenTimeouts at member
  split at member
  · rename_i t _
    cases soap : t.get? "soap" with
    | none =>
      rw [soap] at member
      cases member
    | some v =>
      rw [soap] at member
      change custom ∈ callTimeouts v at member
      unfold callTimeouts at member
      split at member
      · exact timeoutsIn_lt member
      · exact timeoutsIn_lt member
      · cases member
  · cases member

theorem timeout_lt {v : Value} {calls : CallSettings} (read : CallSettings.ofValue? v = some calls) :
    calls.timeout < 2 ^ 63 := by
  obtain ⟨section_, _, field, _⟩ := CallSettings.ofValue?_spec read
  unfold Section.field at field
  split at field
  · exact Value.count?_lt field
  · have same := Option.some.inj field
    rw [← same]
    decide

theorem timeouts_lt {text : String} {s : Settings} (parsed : parse text = .ok s) :
    ∀ seconds ∈ s.timeouts, seconds < 2 ^ 63 := by
  intro seconds member
  rcases List.mem_cons.mp member with rfl | member
  · unfold parse at parsed
    split at parsed
    · rename_i read
      obtain rfl := Except.ok.inj parsed
      obtain ⟨t, _, read⟩ := Option.bind_eq_some_iff.mp read
      rcases ofEntries?_spec read with ⟨_, standard⟩ | ⟨v, _, calls⟩
      · rw [standard]
        decide
      · exact timeout_lt calls
    · cases parsed
  · obtain ⟨custom, listed, rfl⟩ := List.mem_map.mp member
    exact writtenTimeouts_lt ((customTimeouts_spec parsed).2.mem_iff.mp listed)

end Settings

/-! ### What a call does whose deadline cannot be told -/

namespace Client

variable {c : Client} {t : Scene Traffic} {id : CallId} {request : ForwardRequest}

/-- The call can be signed, but there is no instant at which it would time out. -/
def Overruns (c : Client) (t : Scene Traffic) (id : CallId) (request : ForwardRequest) : Prop :=
  (c.signer.sign? (Client.request id request)).isSome = true ∧
    Clock.after? t.now (c.deadlines.waitFor request.context request.payload) = none

theorem forward_of_overruns (overruns : c.Overruns t id request) :
    ∃ signed, c.forward t id request = (t.withEnv (t.env.noteSigned (signed : Request)), .error .deadlineOutOfRange) := by
  obtain ⟨signs, late⟩ := overruns
  obtain ⟨signed, made⟩ := Option.isSome_iff_exists.mp signs
  refine ⟨signed, ?_⟩
  obtain ⟨rfl, context, payload, _⟩ := carries_of_sign? made
  rw [← context, ← payload] at late
  unfold forward place
  rw [made]
  dsimp only
  unfold register
  rw [show (t.withEnv (t.env.noteSigned signed)).now = t.now from rfl, late]

theorem register_ne_deadlineOutOfRange {signed : Request} {instant : Nat}
    (timely : Clock.after? t.now (c.deadlines.waitFor signed.context signed.payload) = some instant) :
    (c.register t signed).2 ≠ .error .deadlineOutOfRange := by
  unfold register
  rw [timely]
  dsimp only
  split
  · nofun
  · nofun

theorem publish_ne_deadlineOutOfRange (c : Client) (t : Scene Traffic) (p : Placed) :
    (c.publish t p).2 ≠ .error .deadlineOutOfRange := by
  unfold publish
  split
  · nofun
  · nofun

/-- A call breaks off only when it is to be registered. -/
theorem overruns_of_place (broke : (c.place t id request).2 = .error .deadlineOutOfRange) :
    c.Overruns t id request := by
  unfold place at broke
  cases made : c.signer.sign? (Client.request id request) with
  | none =>
    rw [made] at broke
    cases broke
  | some signed =>
    rw [made] at broke
    refine ⟨by rw [made]; rfl, ?_⟩
    obtain ⟨_, context, payload, _⟩ := carries_of_sign? made
    cases late : Clock.after? t.now (c.deadlines.waitFor request.context request.payload) with
    | none => rfl
    | some instant =>
      rw [← context, ← payload] at late
      exact absurd broke (register_ne_deadlineOutOfRange late)

theorem forward_breaks_off_iff :
    (c.forward t id request).2 = .error .deadlineOutOfRange ↔ c.Overruns t id request := by
  constructor
  · intro broke
    unfold forward at broke
    split at broke
    · rename_i placed
      refine overruns_of_place ?_
      rw [placed]
      exact congrArg Except.error (Except.error.inj broke)
    · exact absurd broke (publish_ne_deadlineOutOfRange c _ _)
  · intro overruns
    obtain ⟨signed, same⟩ := forward_of_overruns overruns
    rw [same]

theorem forward_waiters (c : Client) (t : Scene Traffic) (id : CallId) (request : ForwardRequest) :
    (c.forward t id request).1.env.desk.waiters = t.env.desk.waiters := by
  have placing := (place_notes c t id request).waiters
  unfold forward
  split
  · rename_i placed
    rw [placed] at placing
    exact placing
  · rename_i placed p given
    rw [given] at placing
    rcases publish_cases c placed p with ⟨_, env⟩ | ⟨_, env⟩
    · rw [env]
      exact placing
    · rw [env]
      exact placing

end Client

namespace Front

variable {f : Front} {t : Scene Traffic} {r : ForwardRequest}

/-- Nothing comes of a call. Its caller is told nothing and waits for nothing, and neither the registry nor
the bus knows of it. -/
structure Vanishes (f : Front) (t : Scene Traffic) (result : Front × Scene Traffic) : Prop where
  silent : result.1.finished = f.finished
  desk : result.2.env.desk = t.env.desk
  bus : result.2.bus = t.bus

/-- Any call but one that breaks off is refused or waits. -/
theorem vanishes_forward_iff (name : String) :
    f.Vanishes t (f.forward t name r) ↔ f.client.Overruns t (.numbered f.nextId) r := by
  constructor
  · rintro ⟨silent, desk, _⟩
    rw [← Client.forward_breaks_off_iff]
    have waiters := Client.forward_waiters f.client t (.numbered f.nextId) r
    rcases came : f.client.forward t (.numbered f.nextId) r with ⟨t', error | ticket⟩
    · cases error with
      | deadlineOutOfRange => rfl
      | _ =>
        -- its caller is told
        rw [forward_refused came name] at silent
        exact absurd silent (by simp [refuse, ForwardError.isTold, finish])
    · -- its caller waits at the desk
      rw [forward_accepted came name] at desk
      rw [came] at waiters
      have same : t'.env.desk.waiters ++ [_] = t.env.desk.waiters := congrArg Desk.waiters desk
      rw [← waiters] at same
      exact absurd same (by simp)
  · intro overruns
    obtain ⟨signed, same⟩ := Client.forward_of_overruns overruns
    rw [forward_refused same name]
    exact ⟨rfl, rfl, rfl⟩

theorem vanishes_serve_iff (name : String) {call : InboundCall} (route : f.endpoint.route call = .forwarded r) :
    f.Vanishes t (f.serve t name call) ↔ f.client.Overruns t (.numbered f.nextId) r := by
  rw [serve_forwarded route]
  have forwarded := vanishes_forward_iff
    (f := { f with inbound := name :: f.inbound, waiting := f.waiting.erase name }) (t := t) (r := r) name
  constructor
  · rintro ⟨silent, desk, bus⟩
    exact forwarded.mp ⟨silent, desk, bus⟩
  · intro overruns
    obtain ⟨silent, desk, bus⟩ := forwarded.mpr overruns
    exact ⟨silent, desk, bus⟩

end Front

namespace Settings

theorem overruns_client {s : Settings} {signer : Signer} {t : Scene Traffic} {id : CallId} {r : ForwardRequest}
    {seconds : Nat} (decides : s.deadlines.waitFor r.context r.payload = seconds * 1000) :
    (s.client signer).Overruns t id r ↔
      (signer.sign? (Client.request id r)).isSome = true ∧ 2 ^ 63 ≤ Clock.second t.now + seconds := by
  rw [← Clock.after?_eq_none_iff, ← decides]
  rfl

/-- Which calls break off under the settings of a configuration. One of the timeouts decides each call, and the
call breaks off exactly if it can be signed and the second that lies this far ahead does not fit into 63 bits.
Nothing comes of such a call, whether it is made on the client side or comes in through the endpoint. As long
as all timeouts fit, every call has its deadline. -/
theorem call_breaks_off_past_last_instant {text : String} {s : Settings} (parsed : parse text = .ok s)
    (signer : Signer) (t : Scene Traffic) :
    (∀ seconds ∈ s.timeouts, seconds < 2 ^ 63) ∧
    (∀ (f : Front) (name : String) (r : ForwardRequest), f.client = s.client signer →
      ∃ seconds ∈ s.timeouts, s.deadlines.waitFor r.context r.payload = seconds * 1000 ∧
        (f.Vanishes t (f.forward t name r) ↔
          (signer.sign? (Client.request (.numbered f.nextId) r)).isSome = true ∧
            2 ^ 63 ≤ Clock.second t.now + seconds) ∧
        ∀ call, f.endpoint.route call = .forwarded r →
          (f.Vanishes t (f.serve t name call) ↔ f.Vanishes t (f.forward t name r))) ∧
    ((∀ seconds ∈ s.timeouts, Clock.second t.now + seconds < 2 ^ 63) →
      ∀ context payload, Clock.after? t.now (s.deadlines.waitFor context payload) =
        some (t.now + s.deadlines.waitFor context payload)) := by
  refine ⟨timeouts_lt parsed, fun f name r client => ?_, fun early context payload => ?_⟩
  · obtain ⟨seconds, given, decides⟩ := s.waitFor_deadlines r.context r.payload
    refine ⟨seconds, given, decides, ?_, fun call route => ?_⟩
    · rw [Front.vanishes_forward_iff, client, overruns_client decides]
    · rw [Front.vanishes_serve_iff name route, Front.vanishes_forward_iff]
  · obtain ⟨seconds, given, decides⟩ := s.waitFor_deadlines context payload
    rw [decides]
    exact Clock.after?_of_lt (early seconds given)

/-! ### A timeout that is meant as none -/

namespace Endless

def text : String := "[soap]\ntimeout_secs = 9223372036854775807\n\n[soap.custom_timeouts]\n\"/Status\" = 10\n"

def settings : Settings where
  calls := { CallSettings.standard with timeout := 9223372036854775807, customTimeouts := [("/Status", 10)] }
  security := .standard
  bus := .standard

theorem parse_text : parse text = .ok settings := by decide +kernel

def client : Client := settings.client Relay.Loopback.signer

def front : Front := .create client .standard

def ping : ForwardRequest := ⟨"/Ping", "<ping/>", some "org-a"⟩

def status : ForwardRequest := ⟨"/Status", "<status/>", some "org-a"⟩

end Endless

open Endless in
theorem call_breaks_off_past_last_instant_of_endless :
    parse text = .ok settings ∧
      front.Vanishes Front.Ping.scene (front.forward Front.Ping.scene "a" ping) ∧
      front.Vanishes Front.Ping.scene (front.serve Front.Ping.scene "a" Front.Ping.post) ∧
      ¬front.Vanishes Front.Ping.scene (front.forward Front.Ping.scene "a" status) := by
  obtain ⟨_, calls, _⟩ := call_breaks_off_past_last_instant parse_text Relay.Loopback.signer Front.Ping.scene
  obtain ⟨long, _, decides, breaks, served⟩ := calls front "a" ping rfl
  obtain ⟨short, _, decides', stays, _⟩ := calls front "a" status rfl
  have endless : settings.deadlines.waitFor ping.context ping.payload = 9223372036854775807 * 1000 := by decide +kernel
  have brief : settings.deadlines.waitFor status.context status.payload = 10 * 1000 := by decide +kernel
  have gone : front.Vanishes Front.Ping.scene (front.forward Front.Ping.scene "a" ping) := by
    refine breaks.mpr ⟨rfl, ?_⟩
    unfold Clock.second
    omega
  refine ⟨parse_text, gone, (served _ Front.Ping.post_authorized.route).mpr gone, fun vanishes => ?_⟩
  have late := (stays.mp vanishes).2
  have start : Clock.second Front.Ping.scene.now = 1 := rfl
  omega

/-- A call under the longest timeout that a configuration can give has no deadline and breaks off. -/
theorem longest_timeout_overruns :
    parse Endless.text = .ok Endless.settings ∧
      Clock.after? 1000 (Endless.settings.deadlines.waitFor "/Ping" "<ping/>") = none ∧
      (Endless.client.forward { Front.Ping.scene with now := 1000 } (.numbered 1) Endless.ping).2 =
        .error .deadlineOutOfRange := by
  have late : Clock.after? 1000 (Endless.settings.deadlines.waitFor "/Ping" "<ping/>") = none := by decide +kernel
  exact ⟨Endless.parse_text, late, Client.forward_breaks_off_iff.mpr ⟨rfl, late⟩⟩

end Settings

end SoapRelay
