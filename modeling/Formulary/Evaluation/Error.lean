import Formulary.Fault
import Formulary.Ty

namespace Formulary

/-! Causes for which the evaluation of a program fails. -/

inductive EvalError where
  | domainViolation (restriction : String)
  | typeError (detail : String)
  | unboundSlot (name : String)
  | inputType (name : String) (expected actual : Ty)
  | argumentCount (expected actual : Nat)
  | unknownFunction (index : Nat)
  | callDepthExceeded (limit : Nat)
  | missingSlot (index : Nat)
  | missingParameter (index : Nat)
  | fault (cause : Fault)
deriving DecidableEq, Inhabited

namespace EvalError

def message : EvalError → String
  | domainViolation restriction => "Domain restriction violated: " ++ restriction
  | typeError detail => "Type error: " ++ detail
  | unboundSlot name => "Input slot not bound: " ++ name
  | inputType name expected actual =>
    "Input '" ++ name ++ "' expects " ++ expected.name ++ ", got " ++ actual.name
  | argumentCount expected actual =>
    "Expected " ++ toString expected ++ " input value(s), got " ++ toString actual
  | unknownFunction index => "Unknown function #" ++ toString index
  | callDepthExceeded limit => "Call depth limit of " ++ toString limit ++ " exceeded"
  | missingSlot index => "Runtime error: slot " ++ toString index ++ " out of range"
  | missingParameter index => "Runtime error: local " ++ toString index ++ " out of range"
  | fault cause => cause.message

/-- A result of values as a result of evaluation. -/
def lift : Except Fault α → Except EvalError α
  | .ok result => .ok result
  | .error cause => .error (.fault cause)

end EvalError

end Formulary
