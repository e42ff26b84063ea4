import SoapRelay.Toml.Value

/-!
# Sections of a configuration

A section has fields of given names, each of which may be missing. It is written as a table, in which
no other keys may stand, or as a list of its fields in their order, of which any number at the end
may be missing and which may go on behind the last field.
-/

namespace SoapRelay.Toml

/-- The values of the fields of a section that are there. -/
structure Section where
  get? : String → Option Value

namespace Section

def ofList (names : List String) (items : List Value) : Section :=
  ⟨fun name => items[names.idxOf name]?⟩

def ofEntries? (names : List String) (t : Entries) : Option Section :=
  if t.all (names.contains ·.1) then some ⟨t.get?⟩ else none

def ofValue? (names : List String) : Value → Option Section
  | .table _ t => ofEntries? names t
  | .list items => some (ofList names items)
  | .tables earlier last => some (ofList names ((earlier ++ [last]).map (.table .header ·)))
  | _ => none

variable {α : Type}

/-- The field as `read?` reads it, or `standard` if it is missing. -/
def field (s : Section) (name : String) (read? : Value → Option α) (standard : α) : Option α :=
  match s.get? name with
  | some v => read? v
  | none => some standard

/-- The field as `read?` reads it. It must be there. -/
def required (s : Section) (name : String) (read? : Value → Option α) : Option α :=
  s.get? name >>= read?

/-- The field as `read?` reads it, if it is there. -/
def optional (s : Section) (name : String) (read? : Value → Option α) : Option (Option α) :=
  s.field name (some <$> read? ·) none

end Section

namespace Value

def text? : Value → Option String
  | .text s => some s
  | _ => none

def boolean? : Value → Option Bool
  | .boolean b => some b
  | _ => none

def count? : Value → Option Nat
  | .integer n => n.toInt.toNat?
  | _ => none

/-- The values of a table under the names they have there. -/
def entries? : Value → Option Entries
  | .table _ t => some t
  | _ => none

end Value

/-- A count has at most 63 bits. -/
theorem Value.count?_lt {v : Value} {n : Nat} (h : v.count? = some n) : n < 0x8000000000000000 := by
  unfold Value.count? at h
  split at h
  · rename_i m
    have hm := m.toInt_lt
    have : m.toInt = n := Int.mem_toNat?.1 h
    omega
  · simp at h

end SoapRelay.Toml
