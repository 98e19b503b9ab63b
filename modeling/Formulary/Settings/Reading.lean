import Formulary.Document.Json
import Formulary.Document.Options
import Formulary.Document.Yaml
import Formulary.Settings.Basic

namespace Formulary

/-! Settings as documents, and as texts in JSON or YAML. -/

open Document (orDefault)

def parameterOfDocument? (document : Document) : Option (String × Ty) := do
  match ← document.record? ["name", "type"] with
  | [some name, some type] => return (← name.text?, ← Ty.ofDocument? type)
  | _ => none

def FormulaSettings.ofDocument? (document : Document) : Option FormulaSettings := do
  match ← document.record? ["source", "parameters", "expect_return", "restrictions"] with
  | [some source, parameters, expectReturn, restrictions] =>
    return {
      source := ← source.text?
      parameters := ← orDefault [] (Document.list? parameterOfDocument?) parameters
      expectReturn := ← orDefault none (Document.option? Ty.ofDocument?) expectReturn
      restrictions := ← orDefault [] (Document.list? Document.text?) restrictions }
  | _ => none

def FormulaSettings.toDocument (formula : FormulaSettings) : Document :=
  let parameter (entry : String × Ty) : Document :=
    .fields [("name", .text entry.1), ("type", entry.2.toDocument)]
  let expectReturn := match formula.expectReturn with
    | some type => [("expect_return", type.toDocument)]
    | none => []
  let restrictions :=
    if formula.restrictions.isEmpty then []
    else [("restrictions", .list (formula.restrictions.map .text))]
  .fields ([("source", .text formula.source),
    ("parameters", .list (formula.parameters.map parameter))] ++ expectReturn ++ restrictions)

namespace Settings

def ofDocument? (document : Document) : Option Settings := do
  let default : Settings := {}
  match ← document.record? ["compiler", "precision", "max_call_depth", "formulas"] with
  | [options, digits, maxCallDepth, formulas] =>
    return {
      options := ← orDefault default.options Options.ofDocument? options
      digits := ← orDefault default.digits Document.nat? digits
      maxCallDepth := ← orDefault default.maxCallDepth Document.nat? maxCallDepth
      formulas := ←
        orDefault default.formulas (Document.table? FormulaSettings.ofDocument?) formulas }
  | _ => none

def toDocument (settings : Settings) : Document :=
  .fields [
    ("compiler", settings.options.toDocument),
    ("precision", .integer settings.digits),
    ("max_call_depth", .integer settings.maxCallDepth),
    ("formulas", .fields (settings.formulas.map fun (name, formula) =>
      (name, formula.toDocument)))]

end Settings

inductive Format where
  | json
  | yaml
deriving DecidableEq

namespace Format

/-- What stands after the last point of a file name. -/
def extension? (name : String) : Option String :=
  let reversed := name.toList.reverse
  let ending := reversed.takeWhile (· != '.')
  if ending.length + 1 < reversed.length then some (String.ofList ending.reverse) else none

/-- Files named as JSON in letters of either case hold JSON, all others YAML. -/
def ofFileName (name : String) : Format :=
  if (extension? name).map String.toLower = some "json" then json else yaml

def parse? : Format → String → Option Document
  | json => Document.Json.parse?
  | yaml => Document.Yaml.parse?

end Format

inductive SettingsError where
  | missingFile
  | malformed (format : Format)
  | flawed (flaw : SettingsFlaw)
deriving DecidableEq

def SettingsError.message : SettingsError → String
  | missingFile => "I/O error"
  | malformed .yaml => "YAML error"
  | malformed .json => "JSON error"
  | flawed flaw => "Configuration error: " ++ flaw.message

namespace Settings

def check (settings : Settings) : Except SettingsError Unit :=
  match settings.flaw? with
  | some flaw => .error (.flawed flaw)
  | none => .ok ()

def parse (format : Format) (content : String) : Except SettingsError Settings :=
  match (format.parse? content).bind ofDocument? with
  | none => .error (.malformed format)
  | some settings => do
    settings.check
    return settings

/-- Settings from a file with the given name and content, which has none if it does not
    exist. -/
def ofFile (name : String) : Option String → Except SettingsError Settings
  | none => .error .missingFile
  | some content => parse (.ofFileName name) content

end Settings

end Formulary
