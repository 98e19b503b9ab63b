import Formulary.Node
import Formulary.Table

namespace Formulary

/-! A compiled formula: its root, the functions it calls and the inputs it reads. -/

structure Slot where
  name : String
  type : Ty
deriving DecidableEq, Inhabited

structure Function where
  name : String
  parameters : List Ty
  returnType : Ty
  body : Node
deriving Inhabited

/-- The version that compiled programs name. -/
def Program.currentVersion : String := "0.1.0"

structure Program where
  root : Node
  functions : List Function := []
  slots : List Slot := []
  /-- Source text, when the formula was compiled from text. -/
  source : Option String := none
  /-- Conditions that guard the program, the outermost first. -/
  restrictions : List String := []
  /-- Remarks of the host, by name; compilation makes none. -/
  custom : Table String := []
  /-- Version of the compiler that made the program. -/
  compilerVersion : String := Program.currentVersion
deriving Inhabited

namespace Program

def returnType (program : Program) : Ty := program.root.ty

def slotNames (program : Program) : List String := program.slots.map (·.name)

end Program

end Formulary
