import Formulary.Calculator
import Formulary.Catalog.Standard
import Formulary.Lowering.Builtin
import Formulary.Lowering.Power
import Formulary.Options

namespace Formulary

/-! What a compilation depends on besides the formula. -/

structure Compiler where
  options : Options := {}
  catalog : Catalog := Catalog.standard
  builtins : List Builtin := Builtin.defaults
  strategies : List PowerStrategy := PowerStrategy.defaults
  calculator : Calculator := Calculator.standard

instance : Inhabited Compiler := ⟨{}⟩

end Formulary
