namespace Formulary

/-! Tables from names to values, with one entry for a name and the names in order. -/

abbrev Table (α : Type) := List (String × α)

namespace Table

def get? (table : Table α) (name : String) : Option α := List.lookup name table

def contains (table : Table α) (name : String) : Bool := (table.get? name).isSome

def names (table : Table α) : List String := table.map (·.1)

/-- Set the value of a name; an earlier value is replaced. -/
def insert (name : String) (value : α) : Table α → Table α
  | [] => [(name, value)]
  | (other, old) :: rest =>
    if name < other then (name, value) :: (other, old) :: rest
    else if name = other then (name, value) :: rest
    else (other, old) :: insert name value rest

/-- The table of a list of entries, of which later ones win. -/
def ofList (entries : List (String × α)) : Table α :=
  entries.foldl (fun table entry => insert entry.1 entry.2 table) []

end Table

/-- The names of a list in order, each of them once. -/
def distinctNames (names : List String) : List String :=
  Table.names (Table.ofList (names.map fun name => (name, ())))

end Formulary
