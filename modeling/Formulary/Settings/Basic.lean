import Formulary.Options
import Formulary.Text.Blank

namespace Formulary

/-! Settings of an engine: what its formulas share, and the formulas by name. -/

structure FormulaSettings where
  source : String
  /-- Inputs in the order of the call. -/
  parameters : List (String × Ty) := []
  /-- Type of the value, if it is not the one that all formulas share. -/
  expectReturn : Option Ty := none
  /-- Sources of the conditions under which the formula has no value. -/
  restrictions : List String := []
deriving Inhabited

structure Settings where
  options : Options := {}
  /-- Significant digits of decimal results. -/
  digits : Nat := 50
  /-- Nesting of calls at evaluation. -/
  maxCallDepth : Nat := 256
  formulas : Table FormulaSettings := []
deriving Inhabited

inductive FormulaFlaw where
  | emptySource
  | repeatedParameter (name : String)
deriving DecidableEq

inductive SettingsFlaw where
  | noDigits
  | noCallDepth
  | formula (name : String) (flaw : FormulaFlaw)
deriving DecidableEq

def FormulaFlaw.message : FormulaFlaw → String
  | emptySource => "empty source"
  | repeatedParameter name => "duplicate parameter '" ++ name ++ "'"

def SettingsFlaw.message : SettingsFlaw → String
  | noDigits => "precision must be at least 1"
  | noCallDepth => "max_call_depth must be at least 1"
  | formula name flaw => "formula '" ++ name ++ "': " ++ flaw.message

/-- The first name that stands in the list a second time; `earlier` came before it. -/
def firstRepeated? (earlier : List String) : List String → Option String
  | [] => none
  | name :: rest =>
    if earlier.contains name then some name else firstRepeated? (name :: earlier) rest

def FormulaSettings.flaw? (formula : FormulaSettings) : Option FormulaFlaw :=
  if Text.isBlankText formula.source then some .emptySource
  else (firstRepeated? [] (formula.parameters.map (·.1))).map .repeatedParameter

/-- The first flaw; formulas are looked at in the order of their names. -/
def Settings.flaw? (settings : Settings) : Option SettingsFlaw :=
  if settings.digits = 0 then some .noDigits
  else if settings.maxCallDepth = 0 then some .noCallDepth
  else settings.formulas.findSome? fun entry => entry.2.flaw?.map (.formula entry.1)

end Formulary
