import Formulary.Expr.Printer
import Formulary.ParseError
import Formulary.Span
import Formulary.Ty

namespace Formulary

/-! Causes for which a formula cannot be compiled. -/

inductive CompileError where
  | noConversion (source target : Ty)
  | unknownVariable (name : String)
  | unknownFunction (name : String)
  | arityMismatch (name : String) (expected : List Nat) (actual : Nat)
  | builtinFailed (name : String)
  | typeError (detail : String)
  | fault (cause : Fault)
  | parse (error : ParseError)
  /-- The innermost part of the formula in which something failed. -/
  | located (expr : Expr) (span : Option Span) (cause : CompileError)
  /-- The bound on nested specialisations was too small. -/
  | unfinished
deriving Inhabited

namespace CompileError

/-- Say where the error arose, unless that is known already. -/
def locate (error : CompileError) (expr : Expr) (span : Option Span) : CompileError :=
  match error with
  | located expr span cause => located expr span cause
  | other => located expr span other

/-- What failed, without the place. -/
def cause : CompileError → CompileError
  | located _ _ cause => cause.cause
  | other => other

def message : CompileError → String
  | noConversion source target => "No conversion from " ++ source.name ++ " to " ++ target.name
  | unknownVariable name => "Unknown variable: " ++ name
  | unknownFunction name => "Unknown function: " ++ name
  | arityMismatch name expected actual =>
    "Function '" ++ name ++ "' does not accept " ++ toString actual ++
      " argument(s), expected " ++ " or ".intercalate (expected.map toString)
  | builtinFailed name => "Builtin '" ++ name ++ "' cannot be applied to these arguments"
  | typeError detail => "Type error: " ++ detail
  | fault cause => cause.message
  | parse error => error.message
  | located expr span cause =>
    let place := match span with
      | some span => " at " ++ span.text
      | none => ""
    "Failed to compile `" ++ expr.display ++ "`" ++ place ++ ": " ++ cause.message
  | unfinished => "Compilation error: too many nested specialisations"

end CompileError

end Formulary
