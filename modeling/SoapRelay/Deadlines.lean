/-!
# How long a caller waits

A table of overrides in a fixed order. An override whose key names the context of a call, up to
leading slashes, decides first; otherwise the first override whose key occurs in the payload does.
-/

namespace SoapRelay

/-- The text without its leading slashes. -/
def bareContext (context : List Char) : List Char :=
  context.dropWhile (· = '/')

def occursIn (part : List Char) : List Char → Bool
  | [] => part.isEmpty
  | c :: rest => part.isPrefixOf (c :: rest) || occursIn part rest

/-- Waiting times in milliseconds. -/
structure Deadlines where
  default : Nat
  overrides : List (String × Nat)

namespace Deadlines

/-- The waiting time of calls that nothing overrides: 45 seconds. -/
def standardWait : Nat := 45000

/-- Adds an override behind the others. -/
def withOverride (d : Deadlines) (key : String) (wait : Nat) : Deadlines :=
  { d with overrides := d.overrides ++ [(key, wait)] }

def matchesContext (context : String) (entry : String × Nat) : Bool :=
  bareContext entry.1.toList = bareContext context.toList

def matchesPayload (payload : String) (entry : String × Nat) : Bool :=
  !entry.1.isEmpty && occursIn entry.1.toList payload.toList

def waitFor (d : Deadlines) (context payload : String) : Nat :=
  match d.overrides.find? (matchesContext context) with
  | some entry => entry.2
  | none =>
    match d.overrides.find? (matchesPayload payload) with
    | some entry => entry.2
    | none => d.default

end Deadlines

end SoapRelay
