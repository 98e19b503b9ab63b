import Formulary.Evaluation.EntryPoint
import Formulary.Lowering.Compile
import Formulary.Settings.Reading
import Formulary.Text.Quoted

namespace Formulary

/-! An engine keeps the formulas of its settings, compiled and ready to evaluate, and compiles
    further ones. -/

inductive EngineError where
  | settings (error : SettingsError)
  | parse (error : ParseError)
  | compile (error : CompileError)
  | evaluation (error : EvalError)
  | formulaNotFound (name : String)
  /-- A formula of the settings does not compile. -/
  | formula (name : String) (cause : EngineError)

def EngineError.message : EngineError → String
  | settings error => error.message
  | parse error => "Parser error: " ++ error.message
  | compile error => "Compiler error: " ++ error.message
  | evaluation error => "Runtime error: " ++ error.message
  | formulaNotFound name => "Formula not found: " ++ name
  | formula name cause => "Formula '" ++ name ++ "': " ++ cause.message

structure Formula where
  source : String
  entry : EntryPoint
deriving Inhabited

namespace Formula

def parameters (formula : Formula) : List String := formula.entry.names

def program (formula : Formula) : Program := formula.entry.program

/-- Options for one formula: those that all formulas share, with its inputs, its type and its
    restrictions. -/
def optionsFor (shared : Options) (settings : FormulaSettings) : Except EngineError Options := do
  let restrictions ← settings.restrictions.mapM fun source =>
    (Expr.parse source).mapError EngineError.parse
  return { shared with
    inputs := settings.parameters.foldl (fun inputs (name, type) => Table.insert name type inputs)
      shared.inputs
    expectReturn := settings.expectReturn.getD shared.expectReturn
    restrictions := shared.restrictions ++ restrictions }

def compile (compiler : Compiler) (machine : Machine) (settings : FormulaSettings) :
    Except EngineError Formula := do
  let options ← optionsFor compiler.options settings
  let program ←
    ({ compiler with options }.compileSource settings.source).mapError EngineError.compile
  let entry ←
    (EntryPoint.bind program (settings.parameters.map (·.1)) machine).mapError
      EngineError.evaluation
  return { source := settings.source, entry }

def evaluate (formula : Formula) (arguments : List Value) : Except EngineError Value :=
  (formula.entry.invoke arguments).mapError .evaluation

def evaluateNamed (formula : Formula) (inputs : Table Value) : Except EngineError Value :=
  (formula.entry.invokeNamed inputs).mapError .evaluation

end Formula

structure Engine where
  settings : Settings
  compiler : Compiler
  machine : Machine
  formulas : Table Formula
deriving Inhabited

/-- What an engine is built from. -/
structure EngineSetup where
  settings : Settings := {}
  /-- Builtins that come before the default ones. -/
  builtins : List Builtin := []
  /-- Strategies for powers that are tried before the default ones. -/
  strategies : List PowerStrategy := []
  catalog : Catalog := Catalog.standard
  /-- The calculator, if it is not the one for the digits of the settings. -/
  calculator : Option Calculator := none

namespace EngineSetup

def mapSettings (change : Settings → Settings) (setup : EngineSetup) : EngineSetup :=
  { setup with settings := change setup.settings }

def mapOptions (change : Options → Options) : EngineSetup → EngineSetup :=
  mapSettings fun settings => { settings with options := change settings.options }

def addFormula (name : String) (formula : FormulaSettings) : EngineSetup → EngineSetup :=
  mapSettings fun settings =>
    { settings with formulas := settings.formulas.insert name formula }

def compiler (setup : EngineSetup) : Compiler where
  options := setup.settings.options
  catalog := setup.catalog
  builtins := setup.builtins ++ Builtin.defaults
  strategies := setup.strategies ++ PowerStrategy.defaults
  calculator := setup.calculator.getD (.ofDigits setup.settings.digits none)

def machine (setup : EngineSetup) : Machine where
  calculator := setup.compiler.calculator
  maxCallDepth := setup.settings.maxCallDepth

/-- The engine, with every formula of the settings compiled in the order of the names. -/
def build (setup : EngineSetup) : Except EngineError Engine := do
  setup.settings.check.mapError EngineError.settings
  let formulas ← setup.settings.formulas.mapM fun (name, formula) =>
    match Formula.compile setup.compiler setup.machine formula with
    | .ok compiled => .ok (name, compiled)
    | .error cause => .error (.formula name cause)
  return { settings := setup.settings, compiler := setup.compiler, machine := setup.machine
           formulas }

end EngineSetup

namespace Engine

def compile (engine : Engine) (settings : FormulaSettings) : Except EngineError Formula :=
  Formula.compile engine.compiler engine.machine settings

def formula (engine : Engine) (name : String) : Except EngineError Formula :=
  match engine.formulas.get? name with
  | some formula => .ok formula
  | none => .error (.formulaNotFound name)

def evaluate (engine : Engine) (name : String) (arguments : List Value) :
    Except EngineError Value := do
  (← engine.formula name).evaluate arguments

def evaluateNamed (engine : Engine) (name : String) (inputs : Table Value) :
    Except EngineError Value := do
  (← engine.formula name).evaluateNamed inputs

/-- The names of formulas and builtins, and the calculator. -/
def describe (engine : Engine) : String :=
  let calculator := engine.compiler.calculator
  "FormulaEngine \x7b formulas: " ++ Text.quotedList engine.formulas.names ++
    ", builtins: " ++ Text.quotedList (engine.compiler.builtins.map Builtin.name) ++
    ", oracle: DecimalOracle \x7b precision: " ++ toString calculator.digits ++
    ", gamma: " ++ (if calculator.gamma.isSome then "true" else "false") ++ " \x7d \x7d"

end Engine

end Formulary
