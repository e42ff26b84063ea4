/-!
# Tables

Values by name, with one value a name. `get?` is the view of a table: each operation says what it
does to it.
-/

namespace SoapRelay

structure Table (α : Type) where
  entries : List (String × α)

namespace Table

variable {α : Type}

def empty : Table α := ⟨[]⟩

def get? (t : Table α) (name : String) : Option α :=
  (t.entries.find? (·.1 == name)).map (·.2)

def contains (t : Table α) (name : String) : Bool :=
  (t.get? name).isSome

def erase (t : Table α) (name : String) : Table α :=
  ⟨t.entries.filter (·.1 != name)⟩

def put (t : Table α) (name : String) (value : α) : Table α :=
  ⟨(name, value) :: (t.erase name).entries⟩

def size (t : Table α) : Nat :=
  t.entries.length

@[simp] theorem get?_empty (name : String) : (empty : Table α).get? name = none := rfl

theorem get?_erase (t : Table α) (name other : String) :
    (t.erase name).get? other = if other = name then none else t.get? other := by
  simp only [get?, erase, List.find?_filter]
  split
  · rename_i h
    subst h
    simp
  · rename_i h
    congr 2
    funext e
    by_cases he : e.1 = other <;> simp_all

@[simp] theorem get?_erase_self (t : Table α) (name : String) : (t.erase name).get? name = none := by
  simp [get?_erase]

theorem get?_put (t : Table α) (name other : String) (value : α) :
    (t.put name value).get? other = if other = name then some value else t.get? other := by
  by_cases h : name = other
  · simp [put, get?, h]
  · have h' : other ≠ name := fun e => h e.symm
    have : (t.put name value).get? other = (t.erase name).get? other := by
      simp [put, get?, h]
    rw [this, get?_erase, if_neg h', if_neg h']

@[simp] theorem get?_put_self (t : Table α) (name : String) (value : α) :
    (t.put name value).get? name = some value := by
  simp [get?_put]

end Table

end SoapRelay
