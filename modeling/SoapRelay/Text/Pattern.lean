/-!
# Searching a text for a pattern

The ways in which a pattern matches at one place come in an order of preference: the first branch before
the second, and few characters before many. A search takes the most preferred match at the leftmost place
where there is one.
-/

namespace SoapRelay

inductive Pattern where
  | one (fits : Char → Bool)
  /-- Characters that fit, as few as possible. -/
  | fewest (fits : Char → Bool)
  /-- The end of the text. -/
  | finish
  | seq (p q : Pattern)
  | either (p q : Pattern)
  /-- A part whose text is kept. -/
  | group (p : Pattern)

namespace Pattern

structure Match where
  taken : List Char
  rest : List Char
  group? : Option (List Char)
  deriving DecidableEq, Repr

/-- Goes on with a match behind another one. -/
def Match.andThen (m n : Match) : Match :=
  ⟨m.taken ++ n.taken, n.rest, n.group?.or m.group?⟩

def few (fits : Char → Bool) : List Char → List Match
  | [] => [⟨[], [], none⟩]
  | c :: cs =>
    ⟨[], c :: cs, none⟩ :: if fits c then (few fits cs).map (Match.andThen ⟨[c], cs, none⟩) else []

/-- The matches at the front of a text, the preferred ones first. -/
def matchesAt : Pattern → List Char → List Match
  | one _, [] => []
  | one fits, c :: cs => if fits c then [⟨[c], cs, none⟩] else []
  | fewest fits, cs => few fits cs
  | finish, [] => [⟨[], [], none⟩]
  | finish, _ :: _ => []
  | seq p q, cs => (p.matchesAt cs).flatMap fun m => (q.matchesAt m.rest).map m.andThen
  | either p q, cs => p.matchesAt cs ++ q.matchesAt cs
  | group p, cs => (p.matchesAt cs).map fun m => { m with group? := some m.taken }

def search? (p : Pattern) : List Char → Option Match
  | [] => (p.matchesAt []).head?
  | c :: cs => (p.matchesAt (c :: cs)).head?.or (search? p cs)

def char (c : Char) : Pattern := one (· = c)

end Pattern

end SoapRelay
