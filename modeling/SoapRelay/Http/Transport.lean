import SoapRelay.Deadlines
import SoapRelay.Http.Call

/-!
# How outbound calls are answered

A transport answers a call after some time, and what it answers may depend on the calls made before
it. A scripted transport plays rules.
-/

namespace SoapRelay

structure CallAnswer where
  after : Nat
  result : Except CallError String

abbrev Transport := (earlier : List OutboundCall) → OutboundCall → CallAnswer

inductive ScriptedResult where
  | reply (text : String)
  /-- The call takes as long as it may. -/
  | timeout
  | failure (error : CallError)

structure ScriptedAnswer where
  after : Nat
  result : ScriptedResult

/-- Answers to the calls in whose payload a text occurs; the last one is given again and again. -/
structure CallRule where
  part : String
  answers : List ScriptedAnswer

namespace CallRule

def applies (r : CallRule) (call : OutboundCall) : Bool :=
  occursIn r.part.toList call.payload.toList

def indexFor? (rules : List CallRule) (call : OutboundCall) : Option Nat :=
  rules.findIdx? (·.applies call)

end CallRule

def ScriptedAnswer.toAnswer (a : ScriptedAnswer) (call : OutboundCall) : CallAnswer :=
  match a.result with
  | .reply text => ⟨a.after, .ok text⟩
  | .timeout => ⟨a.after, .error (.timeout (.ofMillis call.timeout))⟩
  | .failure e => ⟨a.after, .error e⟩

/-- The answer where no rule applies: the payload in a response element. -/
def echo (call : OutboundCall) : CallAnswer :=
  ⟨0, .ok ("<response>" ++ call.payload ++ "</response>")⟩

/-- Plays the first rule for a call; the n-th call of a rule gets its n-th answer. -/
def Transport.scripted (rules : List CallRule) : Transport := fun earlier call =>
  match CallRule.indexFor? rules call with
  | none => echo call
  | some i =>
    let answers := (rules[i]?.map (·.answers)).getD []
    let played := (earlier.filter fun c => CallRule.indexFor? rules c = some i).length
    match answers[min played (answers.length - 1)]? with
    | some a => a.toAnswer call
    | none => echo call

end SoapRelay
