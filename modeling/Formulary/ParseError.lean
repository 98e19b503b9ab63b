import Formulary.Fault

namespace Formulary

/-! Causes for which a text is not a formula. Positions are byte offsets. -/

inductive ParseError where
  | emptySource
  | unexpectedCharacter (character : Char) (position : Nat)
  | unterminatedText (position : Nat)
  | invalidNumber (text : String) (position : Nat)
  | unexpectedToken (expected found : String) (position : Nat)
  | chainedComparison (position : Nat)
  | invalidDefinition (position : Nat) (fault : Fault)
deriving DecidableEq, Inhabited

namespace ParseError

def position? : ParseError → Option Nat
  | emptySource => none
  | unexpectedCharacter _ position => some position
  | unterminatedText position => some position
  | invalidNumber _ position => some position
  | unexpectedToken _ _ position => some position
  | chainedComparison position => some position
  | invalidDefinition position _ => some position

def message : ParseError → String
  | emptySource => "Empty expression"
  | unexpectedCharacter character position =>
    "Unexpected character '" ++ toString character ++ "' at " ++ toString position
  | unterminatedText position => "Unterminated string starting at " ++ toString position
  | invalidNumber text position =>
    "Invalid number '" ++ text ++ "' at " ++ toString position
  | unexpectedToken expected found position =>
    "Expected " ++ expected ++ ", found " ++ found ++ " at " ++ toString position
  | chainedComparison position =>
    "Comparison operators cannot be chained at " ++ toString position
  | invalidDefinition position fault =>
    "Invalid definition at " ++ toString position ++ ": " ++ fault.message

end ParseError

end Formulary
