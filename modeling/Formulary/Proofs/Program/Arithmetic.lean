import Formulary.Proofs.Decimal.Number
import Formulary.Proofs.Semantics.Compile

namespace Formulary

/-! Compiled arithmetic over decimals has the value that is read off the tree. -/

theorem Compiler.simplified_of_silent (compiler : Compiler)
    (unrestricted : compiler.options.ignoreRestrictions = true ∨
      compiler.options.restrictions = []) {expr tree : Expr}
    (silent : Pass.runAll (Pass.ofOptions compiler.options compiler.calculator) expr = (tree, [])) :
    compiler.simplified expr = (tree, []) := by
  unfold Compiler.simplified
  rw [silent]
  rcases unrestricted with ignored | none_
  · simp [ignored]
  · simp [none_]

theorem Compiler.simplified_of_disabled (compiler : Compiler)
    (disabled : compiler.options = compiler.options.withoutSimplification)
    (unrestricted : compiler.options.ignoreRestrictions = true ∨
      compiler.options.restrictions = []) (expr : Expr) :
    compiler.simplified expr = (expr, []) := by
  have passes : Pass.ofOptions compiler.options compiler.calculator = [] := by
    rw [disabled]
    rfl
  exact compiler.simplified_of_silent unrestricted (by rw [passes]; rfl)

/-- The operation on rational numbers behind an operator that never rounds. -/
def Operator.exact? : Operator → Option (ℚ → ℚ → ℚ)
  | add => some (· + ·)
  | sub => some (· - ·)
  | mul => some (· * ·)
  | _ => none

theorem Operator.combine_exact {op : Operator} {operation : ℚ → ℚ → ℚ}
    (exact : op.exact? = some operation) (calculator : Calculator) (a b : Decimal) :
    ∃ result, op.combine calculator a b = .ok result ∧
      result.toRat = operation a.toRat b.toRat := by
  cases op with
  | add => cases exact; exact ⟨a.add b, rfl, Decimal.toRat_add a b⟩
  | sub => cases exact; exact ⟨a.sub b, rfl, Decimal.toRat_sub a b⟩
  | mul => cases exact; exact ⟨a.mul b, rfl, Decimal.toRat_mul a b⟩
  | _ => cases exact

/-- A reading of trees as decimals in which negations and chains of sums, differences or products
    are exact: the chain has the value that its operands have together as rational numbers. -/
structure Expr.Exact (value : Expr → Except EvalError Decimal) : Prop where
  negate : ∀ {operand : Expr} {number : Decimal}, value operand = .ok number →
    ∃ result, value (.unary .negate operand) = .ok result ∧ result.toRat = -number.toRat
  chain : ∀ {op : Operator} {operation : ℚ → ℚ → ℚ}, op.exact? = some operation →
    ∀ {first : Expr} {number : Decimal} {rest : List Expr} {numbers : List Decimal},
    value first = .ok number →
    List.Forall₂ (fun operand number => value operand = .ok number) rest numbers →
    ∃ result, value (.binary op (first :: rest)) = .ok result ∧
      result.toRat = (numbers.map Decimal.toRat).foldl operation number.toRat

namespace Expr

variable {calculator : Calculator} {inputs : String → Option Decimal}
  {enter : Definition → List Definition → List Decimal → Except EvalError Decimal} {frame : Frame}

theorem combineWith_exact {op : Operator} {operation : ℚ → ℚ → ℚ}
    (exact : op.exact? = some operation) {rest : List Expr} {numbers : List Decimal}
    (valued : List.Forall₂
      (fun operand number => operand.valueWith calculator inputs enter frame = .ok number)
      rest numbers) (number : Decimal) :
    ∃ result, combineWith calculator inputs enter op number rest frame = .ok result ∧
      result.toRat = (numbers.map Decimal.toRat).foldl operation number.toRat := by
  induction valued generalizing number with
  | nil => exact ⟨number, rfl, rfl⟩
  | cons first _ ih =>
    rename_i next _ _ _
    obtain ⟨sum, combined, same⟩ := Operator.combine_exact exact calculator number next
    obtain ⟨result, done, exactly⟩ := ih sum
    refine ⟨result, ?_, ?_⟩
    · rw [combineWith]
      exact bind_eq_ok.mpr ⟨next, first, bind_eq_ok.mpr ⟨sum, combined, done⟩⟩
    · rw [exactly, same, List.map_cons, List.foldl_cons]

theorem valueWith_exact : Exact fun expr => expr.valueWith calculator inputs enter frame where
  negate := by
    intro operand number valued
    refine ⟨number.neg, ?_, Decimal.toRat_neg number⟩
    simp only [valueWith]
    exact bind_eq_ok.mpr ⟨number, valued, rfl⟩
  chain := by
    intro op operation exact first number rest numbers firstValued restValued
    obtain ⟨result, done, exactly⟩ := combineWith_exact exact restValued number
    refine ⟨result, ?_, exactly⟩
    simp only [valueWith]
    exact bind_eq_ok.mpr ⟨number, firstValued, done⟩

end Expr

/-- A product of inputs and a fraction. -/
def taxed : Expr := .binary .mul [.var "x", .number ⟨1, 1⟩, .var "y"]

/-- A power with a written-out exponent, a remainder and a quotient that may fail, taken from a
    product. -/
def remainderOfPower : Expr :=
  .binary .sub
    [taxed,
      .binary .rem
        [.binary .power [.call "abs" [.var "x"] false, .number ⟨20, 1⟩],
          .unary .negate
            (.binary .div [.number (.ofInt 7), .var "y", .unary .factorial (.var "x")])]]

def decimalCompiler : Compiler where
  options :=
    { inputs := [("x", .decimal), ("y", .decimal)]
      expectReturn := .decimal
      inlining := { enabled := false }
      foldLiterals := false
      flattenChains := false
      simplifyExponents := false }

end Formulary
