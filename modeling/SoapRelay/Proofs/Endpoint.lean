import Mathlib.Data.List.DropRight
import SoapRelay.Endpoint

/-!
# Which calls are forwarded

The endpoint forwards a call exactly if it is authorized, and answers every other call for the first
reason that applies.
-/

namespace SoapRelay

namespace Endpoint

variable {e : Endpoint} {path context : String} {call : InboundCall}

/-- A path leads below the proxy path, at the end of a segment. -/
structure Routed (e : Endpoint) (path context : String) : Prop where
  below : path = String.ofList e.stem ++ context
  segment : context = "" ∨ ∃ rest, context = "/" ++ rest

structure Authorized (e : Endpoint) (call : InboundCall) (context organization : String) : Prop where
  routed : e.Routed call.path context
  unhealthy : call.path ≠ e.healthPath
  identity : call.identity? = some organization
  method : call.method = "POST"

/-- Why a call is answered at once, and how. -/
inductive Answers (e : Endpoint) (call : InboundCall) : HttpAnswer → Prop where
  | healthy (health : call.path = e.healthPath) : Answers e call .healthy
  | unrouted (unhealthy : call.path ≠ e.healthPath) (astray : ∀ context, ¬e.Routed call.path context) :
      Answers e call (.empty 404)
  | anonymous (unhealthy : call.path ≠ e.healthPath) {context : String} (routed : e.Routed call.path context)
      (unknown : call.identity? = none) : Answers e call (.empty 401)
  | method (unhealthy : call.path ≠ e.healthPath) {context : String} (routed : e.Routed call.path context)
      {organization : String} (known : call.identity? = some organization) (other : call.method ≠ "POST") :
      Answers e call (.empty 405)

/-- The stem is the proxy path without its trailing slashes. -/
theorem stem_spec (e : Endpoint) :
    (∃ n, e.proxyPath.toList = e.stem ++ List.replicate n '/') ∧
      ∀ nonempty : e.stem ≠ [], e.stem.getLast nonempty ≠ '/' := by
  have same : e.stem = e.proxyPath.toList.rdropWhile (· = '/') := rfl
  refine ⟨⟨(e.proxyPath.toList.rtakeWhile (· = '/')).length, ?_⟩, ?_⟩
  · have slashes : e.proxyPath.toList.rtakeWhile (· = '/') =
        List.replicate (e.proxyPath.toList.rtakeWhile (· = '/')).length '/' := by
      refine List.eq_replicate_of_mem ?_
      intro c member
      have slash := List.mem_rtakeWhile_imp member
      exact of_decide_eq_true slash
    rw [← slashes, same, List.rdropWhile_append_rtakeWhile]
  · rw [same]
    intro nonempty slash
    exact List.rdropWhile_last_not _ _ nonempty (decide_eq_true slash)

theorem routed_iff : e.Routed path context ↔
    path.toList = e.stem ++ context.toList ∧ (context.toList = [] ∨ ∃ rest, context.toList = '/' :: rest) := by
  constructor
  · rintro ⟨rfl, segment⟩
    rw [String.toList_append, String.toList_ofList]
    refine ⟨rfl, ?_⟩
    rcases segment with rfl | ⟨rest, rfl⟩
    · exact Or.inl rfl
    · exact Or.inr ⟨rest.toList, by rw [String.toList_append]; rfl⟩
  · rintro ⟨below, segment⟩
    refine ⟨?_, ?_⟩
    · rw [← String.toList_inj, below, String.toList_append, String.toList_ofList]
    · rcases segment with none | ⟨rest, slash⟩
      · exact Or.inl (String.toList_inj.mp none)
      · refine Or.inr ⟨String.ofList rest, ?_⟩
        rw [← String.toList_inj, slash, String.toList_append, String.toList_ofList, String.toList_ofList]
        rfl

theorem context?_eq_some_iff : e.context? path = some context ↔ e.Routed path context := by
  rw [routed_iff, context?]
  by_cases under : e.stem.isPrefixOf path.toList = true
  · obtain ⟨rest, whole⟩ := List.isPrefixOf_iff_prefix.mp under
    rw [if_pos under, ← whole, List.drop_left, List.append_cancel_left_eq]
    constructor
    · intro found
      split at found
      · obtain rfl := Option.some.inj found
        exact ⟨rfl, Or.inl rfl⟩
      · obtain rfl := Option.some.inj found
        rw [String.toList_ofList]
        exact ⟨rfl, Or.inr ⟨_, rfl⟩⟩
      · cases found
    · rintro ⟨rfl, none | ⟨rest, slash⟩⟩
      · rw [none]
        exact congrArg some (String.toList_inj.mp none).symm
      · rw [slash]
        show some (String.ofList ('/' :: rest)) = some context
        rw [← slash, String.ofList_toList]
  · rw [if_neg under]
    refine iff_of_false nofun ?_
    rintro ⟨below, _⟩
    exact under (List.isPrefixOf_iff_prefix.mpr ⟨context.toList, below.symm⟩)

theorem context?_eq_none_iff : e.context? path = none ↔ ∀ context, ¬e.Routed path context := by
  rw [Option.eq_none_iff_forall_ne_some]
  exact forall_congr' fun context => not_congr context?_eq_some_iff

theorem Authorized.route {organization : String} (authorized : e.Authorized call context organization) :
    e.route call = .forwarded ⟨context, call.body, some organization⟩ := by
  unfold Endpoint.route
  rw [if_neg authorized.unhealthy, context?_eq_some_iff.mpr authorized.routed, authorized.identity]
  exact if_neg (not_not_intro authorized.method)

/-- What becomes of a call: it is authorized and forwarded, or it is answered at once. -/
inductive Routes (e : Endpoint) (call : InboundCall) : Route → Prop where
  | forwarded {context organization : String} (authorized : e.Authorized call context organization) :
      Routes e call (.forwarded ⟨context, call.body, some organization⟩)
  | turnedAway {answer : HttpAnswer} (answers : e.Answers call answer)
      (unauthorized : ∀ context organization, ¬e.Authorized call context organization) :
      Routes e call (.turnedAway answer)

theorem route_routes (e : Endpoint) (call : InboundCall) : Routes e call (e.route call) := by
  unfold route
  by_cases health : call.path = e.healthPath
  · rw [if_pos health]
    exact .turnedAway (.healthy health) fun _ _ authorized => authorized.unhealthy health
  · rw [if_neg health]
    cases found : e.context? call.path with
    | none =>
      have astray := context?_eq_none_iff.mp found
      exact .turnedAway (.unrouted health astray) fun context _ authorized => astray context authorized.routed
    | some context =>
      have routed := context?_eq_some_iff.mp found
      cases identity : call.identity? with
      | none =>
        refine .turnedAway (.anonymous health routed identity) ?_
        intro _ organization authorized
        cases identity.symm.trans authorized.identity
      | some organization =>
        dsimp only
        by_cases method : call.method = "POST"
        · rw [if_neg (not_not_intro method)]
          exact .forwarded ⟨routed, health, identity, method⟩
        · rw [if_pos method]
          exact .turnedAway (.method health routed identity method) fun _ _ authorized => method authorized.method

end Endpoint

end SoapRelay
