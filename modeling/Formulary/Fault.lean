namespace Formulary

/-! Faults are the causes for which an operation on values can fail. The detail says which
    value or type was involved; `message` is the only place where the wording is fixed. -/

inductive Fault where
  | typeError (detail : String)
  | invalidOperation (detail : String)
  | memberNotFound (detail : String)
  | invalidValue (detail : String)
  | invalidDefinition (detail : String)
  | domain (detail : String)
  | divisionByZero
  | overflow (detail : String)
  | notSupported (detail : String)
deriving DecidableEq, Inhabited

namespace Fault

def message : Fault → String
  | typeError detail => "Type error: " ++ detail
  | invalidOperation detail => "Invalid operation: " ++ detail
  | memberNotFound detail => "Member not found: " ++ detail
  | invalidValue detail => "Invalid value: " ++ detail
  | invalidDefinition detail => "Invalid definition: " ++ detail
  | domain detail => "Domain error: " ++ detail
  | divisionByZero => "Division by zero"
  | overflow detail => "Numeric overflow: " ++ detail
  | notSupported detail => "Not supported: " ++ detail

end Fault

end Formulary
