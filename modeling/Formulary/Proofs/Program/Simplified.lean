import Formulary.Proofs.Program.Arithmetic
import Formulary.Proofs.Semantics.Evaluable
import Formulary.Proofs.Simplify.Fold
import Formulary.Proofs.Simplify.Inline

namespace Formulary

/-! Simplification keeps the results of decimal programs. Each pass keeps the value of the tree,
    and a tree that has a value is compiled to a program with that value. -/

open Decimal (Same)

namespace Pass

/-- Passes that keep values under every input: all but the one that simplifies exponents. -/
def KeepsValue (calculator : Calculator) : Pass → Prop
  | inline _ | flatten _ => True
  | exponents _ => False
  | fold own _ => own = calculator

variable {calculator : Calculator} {inputs : String → Option Decimal}

theorem run_gains (numeric : calculator.Numeric) (estimates : calculator.EstimatesLogarithm)
    {pass : Pass} (keeps : pass.KeepsValue calculator) (depth : Nat) (expr : Expr) :
    (pass.run expr).2 = [] ∧
      Gains Same (expr.valueWithin calculator inputs depth ⟨[], []⟩)
        ((pass.run expr).1.valueWithin calculator inputs depth ⟨[], []⟩) := by
  have whole : ∀ {change : Expr → Expr}, KeepsValues calculator Same inputs change depth →
      Gains Same (expr.valueWithin calculator inputs depth ⟨[], []⟩)
        ((change expr).valueWithin calculator inputs depth ⟨[], []⟩) := fun kept =>
    kept depth le_rfl expr ⟨[], []⟩ ⟨[], []⟩ .nil
      (.of_visible numeric.respects depth fun _ _ => rfl)
  cases pass with
  | inline limits => exact ⟨rfl, Expr.inline_gains numeric.respects limits depth expr⟩
  | exponents rules => exact keeps.elim
  | flatten keptApart => exact ⟨rfl, whole (Expr.flatten_keepsValues numeric keptApart depth)⟩
  | fold own keptApart =>
    cases keeps
    exact ⟨rfl, whole (Expr.foldLiterals_keepsValues numeric estimates keptApart depth)⟩

theorem runAll_gains (numeric : calculator.Numeric) (estimates : calculator.EstimatesLogarithm)
    {passes : List Pass} (keep : ∀ pass ∈ passes, pass.KeepsValue calculator) (depth : Nat)
    (expr : Expr) :
    (runAll passes expr).2 = [] ∧
      Gains Same (expr.valueWithin calculator inputs depth ⟨[], []⟩)
        ((runAll passes expr).1.valueWithin calculator inputs depth ⟨[], []⟩) := by
  induction passes generalizing expr with
  | nil => exact ⟨rfl, .refl⟩
  | cons pass rest ih =>
    obtain ⟨silent, first⟩ := run_gains numeric estimates (keep pass (by simp)) depth expr
    obtain ⟨silentRest, others⟩ := ih (fun other member => keep other (by simp [member]))
      (pass.run expr).1
    refine ⟨?_, Improves.trans first others fun _ _ _ => Eq.trans⟩
    rw [runAll]
    dsimp only
    rw [silent, silentRest]
    rfl

theorem keepsValue_of_mem_ofOptions {options : Options} (calculator : Calculator)
    (exponents : options.simplifyExponents = false) :
    ∀ pass ∈ ofOptions options calculator, pass.KeepsValue calculator := by
  intro pass member
  obtain ⟨listed, switched⟩ := List.mem_filter.mp member
  cases pass with
  | inline _ | flatten _ => trivial
  | exponents _ =>
    rw [enabled, exponents] at switched
    cases switched
  | fold own keptApart =>
    simp only [all, List.mem_cons, reduceCtorEq, List.not_mem_nil, false_or, or_false,
      fold.injEq] at listed
    exact listed.1

end Pass

/-- A local function, literals on both sides of its call, and a sum within a sum. -/
def scaledSum : Expr :=
  .define "scale" ["a"]
    (.binary .add [.binary .mul [.number (.ofInt 2), .var "a"], .number (.ofInt 1)])
    (.binary .add
      [.number (.ofInt 3), .call "scale" [.var "x"] true,
        .binary .add
          [.binary .power [.number (.ofInt 2), .number (.ofInt 5)],
            .unary .negate (.number (.ofInt 7))]])

def simplifyingCompiler : Compiler where
  options :=
    { inputs := [("x", .decimal)]
      expectReturn := .decimal
      simplifyExponents := false }

def plainCompiler : Compiler :=
  { simplifyingCompiler with options := simplifyingCompiler.options.withoutSimplification }

/-- Whether the program of a formula, with one decimal in every slot, computes a decimal equal
    to the expected one. -/
def Compiler.yields (compiler : Compiler) (expr : Expr) (given expected : Decimal) : Bool :=
  match compiler.compile expr with
  | .ok program =>
    match Machine.evaluate {} program (program.slots.map fun _ => .decimal given) with
    | .ok (.decimal d) => d.equal expected
    | _ => false
  | .error _ => false

theorem Compiler.exists_of_yields {compiler : Compiler} {expr : Expr} {given expected : Decimal}
    (yields : compiler.yields expr given expected = true) :
    ∃ program d, compiler.compile expr = .ok program ∧
      Machine.evaluate {} program (program.slots.map fun _ => .decimal given) =
        .ok (.decimal d) ∧
      d.equal expected = true := by
  unfold Compiler.yields at yields
  split at yields
  case h_1 program compiled =>
    split at yields
    case h_1 d evaluated => exact ⟨program, d, compiled, evaluated, yields⟩
    case h_2 => cases yields
  case h_2 => cases yields

end Formulary
