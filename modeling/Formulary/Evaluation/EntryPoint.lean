import Formulary.Evaluation.Machine
import Formulary.Table

namespace Formulary

/-! A program bound to the names of its parameters. Names that the program does not read are
    accepted, and their values are ignored. -/

structure EntryPoint where
  program : Program
  /-- Parameters in the order of the call. -/
  names : List String
  /-- Where the value of each input stands among the parameters. -/
  positions : List Nat
  machine : Machine
deriving Inhabited

namespace EntryPoint

/-- Bind a program; every input it reads must be named. -/
def bind (program : Program) (names : List String) (machine : Machine) :
    Except EvalError EntryPoint := do
  let positions ← program.slots.mapM fun slot =>
    match names.findIdx? (· == slot.name) with
    | some position => .ok position
    | none => .error (.unboundSlot slot.name)
  return { program, names, positions, machine }

/-- A value for an input, which must have its type. -/
def check (slot : Slot) (value : Value) : Except EvalError Value :=
  if value.ty = slot.type then .ok value
  else .error (.inputType slot.name slot.type value.ty)

/-- Evaluate with one value per parameter. -/
def invoke (entry : EntryPoint) (arguments : List Value) : Except EvalError Value := do
  if arguments.length ≠ entry.names.length then
    throw (.argumentCount entry.names.length arguments.length)
  let slots ← (entry.program.slots.zip entry.positions).mapM fun (slot, position) =>
    match arguments[position]? with
    | some value => check slot value
    | none => .error (.unboundSlot slot.name)
  entry.machine.evaluate entry.program slots

/-- Evaluate with values by the names of the inputs. -/
def invokeNamed (entry : EntryPoint) (inputs : Table Value) : Except EvalError Value := do
  let slots ← entry.program.slots.mapM fun slot =>
    match inputs.get? slot.name with
    | some value => check slot value
    | none => .error (.unboundSlot slot.name)
  entry.machine.evaluate entry.program slots

end EntryPoint

end Formulary
