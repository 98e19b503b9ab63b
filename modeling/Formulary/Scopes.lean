import Formulary.Text.Quoted

namespace Formulary

/-! Nested scopes of entries. A look-up goes through the enclosing scopes from the inside;
    changes are made in the innermost scope only. -/

structure Scopes (κ α : Type) where
  innermost : List (κ × α)
  /-- Enclosing scopes from the inside. -/
  enclosing : List (List (κ × α))
deriving Inhabited

namespace Scopes

def empty : Scopes κ α := ⟨[], []⟩

def depth (scopes : Scopes κ α) : Nat := scopes.enclosing.length

def push (scopes : Scopes κ α) : Scopes κ α := ⟨[], scopes.innermost :: scopes.enclosing⟩

/-- Close the innermost scope; the outermost one stays open. -/
def pop? (scopes : Scopes κ α) : Option (Scopes κ α) :=
  match scopes.enclosing with
  | [] => none
  | parent :: rest => some ⟨parent, rest⟩

/-- Depths that are left as the open scopes are closed one after the other. -/
def closingDepths (scopes : Scopes κ α) : List Nat := (List.range scopes.depth).reverse

def get? [BEq κ] (scopes : Scopes κ α) (key : κ) : Option α :=
  (scopes.innermost :: scopes.enclosing).findSome? (List.lookup key)

def contains [BEq κ] (scopes : Scopes κ α) (key : κ) : Bool := (scopes.get? key).isSome

def own? [BEq κ] (scopes : Scopes κ α) (key : κ) : Option α := List.lookup key scopes.innermost

def remove [BEq κ] (scopes : Scopes κ α) (key : κ) : Scopes κ α :=
  { scopes with innermost := scopes.innermost.filter (·.1 != key) }

def set [BEq κ] (scopes : Scopes κ α) (key : κ) (value : α) : Scopes κ α :=
  { scopes with innermost := (key, value) :: (scopes.remove key).innermost }

/-- Depth and the keys of the innermost scope by name. -/
def describe (name : κ → String) (scopes : Scopes κ α) : String :=
  let names := (scopes.innermost.map fun entry => name entry.1).mergeSort (· ≤ ·)
  "ScopedContext \x7b depth: " ++ toString scopes.depth ++ ", keys: " ++
    Text.quotedList names ++ " \x7d"

end Scopes

end Formulary
