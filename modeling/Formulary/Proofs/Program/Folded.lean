import Formulary.Proofs.Program.Arithmetic
import Formulary.Proofs.Simplify.Decimals
import Formulary.Proofs.Simplify.Integers

namespace Formulary

/-! Programs of folded formulas. Where a formula computes with one exact type, folding its
    literals changes no outcome. Where types are mixed it can: a literal exponent selects another
    way to raise an integer than the sum it was folded from. -/

open Decimal (Same)

/-- The formula computes with numbers of one exact type. -/
inductive Compiler.OneType (compiler : Compiler) (expr : Expr) : Prop
  | integers (w : Width) (returns : compiler.options.expectReturn = w.type)
      (uniform : expr.Uniform compiler.options.inputs w)
  | decimals (returns : compiler.options.expectReturn = .decimal)
      (complete : expr.Complete compiler.options.inputs [] [])

/-- Values of one type that are the same number. -/
def Value.SameNumber (left right : Value) : Prop :=
  left = right ∨ ∃ d e, left = .decimal d ∧ right = .decimal e ∧ d.equal e = true

theorem Value.SameNumber.refl (outcome : Except EvalError Value) :
    EvalError.Alike Value.SameNumber outcome outcome := by
  cases outcome with
  | ok value => exact .inl rfl
  | error error => rfl

/-- Only literals are folded. -/
def Options.OnlyFolds (options : Options) : Prop :=
  options = { options.withoutSimplification with foldLiterals := true }

namespace Compiler

variable {compiler : Compiler}

theorem simplified_of_folding (folding : compiler.options.OnlyFolds)
    (unrestricted : compiler.options.ignoreRestrictions = true ∨
      compiler.options.restrictions = []) (expr : Expr) :
    compiler.simplified expr =
      (expr.foldLiterals compiler.calculator compiler.options.keptApart, []) := by
  have passes : Pass.ofOptions compiler.options compiler.calculator =
      [.fold compiler.calculator compiler.options.keptApart] := by
    rw [folding]
    rfl
  exact compiler.simplified_of_silent unrestricted (by rw [passes]; rfl)

theorem compileWith_complete {expr tree : Expr} (default : compiler.Default)
    (returns : compiler.options.expectReturn = .decimal)
    (simplified : compiler.simplified expr = (tree, []))
    (complete : tree.Complete compiler.options.inputs [] []) (spanOf : Expr → Option Span)
    (source : Option String) :
    ∃ program, compiler.compileWith spanOf source expr = .ok program ∧
      program.Computes compiler tree := by
  have computes := compileWith_computes default returns (.complete compiler) simplified
    ⟨complete, fun _ _ inner => by simp at inner⟩ spanOf source
  exact computes.exists_ok

end Compiler

theorem Agrees.sameNumber {left right : Except EvalError Value}
    {value value' : Except EvalError Decimal} (first : Agrees left value)
    (second : Agrees right value') (alike : EvalError.Alike Same value value') :
    EvalError.Alike Value.SameNumber left right := by
  have middle : EvalError.Alike (fun result e => ∃ d, result = .decimal d ∧ Same d e) left value' :=
    Matches.trans first alike (fun _ d _ read same => ⟨d, read, same⟩) fun _ _ _ => Eq.trans
  refine Matches.trans middle second.symm ?_ fun _ _ _ kind other => kind.trans other.symm
  rintro _ e _ ⟨d, rfl, same⟩ rfl
  exact .inr ⟨d, e, rfl, rfl, Decimal.equal_iff.mpr same⟩

theorem exists_decimals {inputs : Table Ty} {given : String → Value}
    (typed : ∀ name type, inputs.get? name = some type → (given name).ty = type) :
    ∃ numbers : String → Decimal,
      ∀ name, inputs.get? name = some .decimal → given name = .decimal (numbers name) := by
  refine ⟨fun name => (given name).toDecimal?.getD .zero, fun name declared => ?_⟩
  have decimal := typed name _ declared
  cases value : given name <;> simp_all [Value.ty, Value.toDecimal?]

theorem Program.Computes.map_slots {compiler : Compiler} {program : Program} {expr : Expr}
    (computes : program.Computes compiler expr) {given : String → Value}
    {numbers : String → Decimal}
    (read : ∀ name, compiler.options.inputs.get? name = some .decimal →
      given name = .decimal (numbers name)) :
    (program.slots.map fun slot => given slot.name) =
      program.slots.map fun slot => .decimal (numbers slot.name) :=
  List.map_congr_left fun slot member => read slot.name (computes.slots slot member).2

/-- A power less a factorial, both of literals, times an input, and the remainder of it all. -/
def scaledRemainder : Expr :=
  .binary .rem
    [.binary .mul
      [.binary .sub
        [.binary .power [.number (.ofInt 2), .number (.ofInt 5)],
          .unary .factorial (.number (.ofInt 4))],
        .var "x"],
      .number (.ofInt 7)]

def foldingCompiler (input result : Ty) : Compiler where
  options :=
    { inputs := [("x", input)]
      expectReturn := result
      keptApart := [.add, .mul, .and, .or]
      inlining := { enabled := false }
      flattenChains := false
      simplifyExponents := false }

def unfoldingCompiler (input result : Ty) : Compiler :=
  { foldingCompiler input result with
    options := (foldingCompiler input result).options.withoutSimplification }

/-- The least integer of 32 bits as the double of a literal, and its remainder by minus one. -/
def leastRemainder : Expr :=
  .binary .rem
    [.binary .mul [.number (.ofInt (-1073741824)), .number (.ofInt 2)], .number (.ofInt (-1))]

example :
    (foldingCompiler .int32 .int32).compile leastRemainder =
        .ok { root := .constant (.int32 ⟨0, by decide⟩) } ∧
      ∃ plain, (unfoldingCompiler .int32 .int32).compile leastRemainder = .ok plain ∧
        Machine.evaluate {} plain [] = .error Width.w32.remainderOverflow :=
  ⟨rfl, _, rfl, rfl⟩

/-- `x ^ (1 + 1)`. -/
def sumAsExponent : Expr :=
  .binary .power [.var "x", .binary .add [.number (.ofInt 1), .number (.ofInt 1)]]

/-- As a sum the exponent has the type of the result, and the base is widened to it. -/
def widenedSquare : Program where
  root := .arith .power .int64 (.convert (.cast .int32 .int64) (.slot 0 .int32))
    (.arith .add .int64 (.constant (.int64 ⟨1, by decide⟩)) (.constant (.int64 ⟨1, by decide⟩)))
  slots := [⟨"x", .int32⟩]

/-- As a literal it leaves the base as it is. -/
def narrowSquare : Program where
  root := .convert (.cast .int32 .int64)
    (.arith .power .int32 (.slot 0 .int32) (.constant (.int32 ⟨2, by decide⟩)))
  slots := [⟨"x", .int32⟩]

end Formulary
