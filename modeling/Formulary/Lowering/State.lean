import Formulary.CompileError
import Formulary.Program

namespace Formulary

/-! What lowering collects on its way: the inputs that are read and the functions that are
    compiled. A function is compiled once for each list of argument types, and its entry is
    reserved before its body is lowered, so that a recursive call finds it. -/

/-- A definition, by its number, at certain argument types. -/
structure Signature where
  definition : Nat
  types : List Ty
deriving DecidableEq, Inhabited

structure FunctionTable where
  /-- Functions by index; a function whose body is still being lowered has none. -/
  bodies : List (Option Function) := []
  /-- Index and return type of each signature. -/
  memo : List (Signature × Nat × Ty) := []
  nextDefinition : Nat := 0
deriving Inhabited

namespace FunctionTable

def lookup (table : FunctionTable) (signature : Signature) : Option (Nat × Ty) :=
  table.memo.lookup signature

/-- Add an entry without a body; its index is the number of entries before. -/
def reserve (table : FunctionTable) (signature : Signature) (returnType : Ty) : FunctionTable :=
  { table with
    bodies := table.bodies ++ [none]
    memo := (signature, table.bodies.length, returnType) :: table.memo }

def store (table : FunctionTable) (index : Nat) (function : Function) : FunctionTable :=
  { table with bodies := table.bodies.set index (some function) }

/-- Drop all entries from an index on. -/
def rollback (table : FunctionTable) (index : Nat) : FunctionTable :=
  { table with
    bodies := table.bodies.take index
    memo := table.memo.filter fun entry => entry.2.1 < index }

/-- All functions, each of which must have its body. -/
def finish (table : FunctionTable) : Except CompileError (List Function) :=
  table.bodies.mapM fun body =>
    match body with
    | some function => .ok function
    | none => .error .unfinished

end FunctionTable

structure LowerState where
  slots : List Slot := []
  functions : FunctionTable := {}
deriving Inhabited

/-- Lowering can fail, and what it has collected stays when a failure is handled. -/
abbrev LowerM := ExceptT CompileError (StateM LowerState)

namespace LowerM

/-- Say in which tree an action fails. -/
def locating (expr : Expr) (span : Option Span) (action : LowerM α) : LowerM α :=
  ExceptT.adapt (fun error => error.locate expr span) action

def attempt (action : LowerM α) : LowerM (Except CompileError α) :=
  fun state =>
    match action state with
    | (result, state) => (.ok result, state)

def modifyTable (change : FunctionTable → FunctionTable) : LowerM Unit :=
  modify fun state => { state with functions := change state.functions }

/-- A number for a definition, different from all others. -/
def freshDefinition : LowerM Nat := do
  let number := (← get).functions.nextDefinition
  modifyTable fun table => { table with nextDefinition := number + 1 }
  return number

/-- Compile a function and give its index. Its entry is reserved while the body is lowered, and
    dropped again when that fails. -/
def compileFunction (signature : Signature) (name : String) (returnType : Ty)
    (lowerBody : LowerM Node) : LowerM Nat := do
  let index := (← get).functions.bodies.length
  modifyTable (·.reserve signature returnType)
  match ← attempt lowerBody with
  | .ok body =>
    modifyTable (·.store index ⟨name, signature.types, returnType, body⟩)
    return index
  | .error error =>
    modifyTable (·.rollback index)
    throw error

/-- Index of an input, which is added when it is read for the first time. -/
def slotIndex (name : String) (type : Ty) : LowerM Nat := do
  let slots := (← get).slots
  match slots.findIdx? (·.name == name) with
  | some index => return index
  | none =>
    modify fun state => { state with slots := slots ++ [⟨name, type⟩] }
    return slots.length

end LowerM

end Formulary
