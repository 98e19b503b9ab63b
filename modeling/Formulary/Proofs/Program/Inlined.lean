import Formulary.Proofs.Program.Simplified

namespace Formulary

/-! Programs of inlined formulas. Over decimals a body computes in place of a call what the call
    computes. With other types it need not: the arguments of a call have the type that is expected
    of the call, and in place of a parameter they have the type of what surrounds them. -/

/-- Only definitions are inlined, with any limits. -/
def Options.OnlyInlines (options : Options) : Prop :=
  options = { options.withoutSimplification with
    inlining := { options.inlining with enabled := true } }

namespace Compiler

variable {compiler : Compiler}

theorem simplified_of_inlining (inlining : compiler.options.OnlyInlines)
    (unrestricted : compiler.options.ignoreRestrictions = true ∨
      compiler.options.restrictions = []) (expr : Expr) :
    compiler.simplified expr = (expr.inline compiler.options.inlining, []) := by
  have passes : Pass.ofOptions compiler.options compiler.calculator =
      [.inline compiler.options.inlining] := by
    rw [inlining]
    rfl
  exact compiler.simplified_of_silent unrestricted (by rw [passes]; rfl)

theorem compileWith_evaluable {expr tree : Expr} {machine : Machine} {given : String → Decimal}
    {value : Decimal} (default : compiler.Default)
    (returns : compiler.options.expectReturn = .decimal)
    (simplified : compiler.simplified expr = (tree, []))
    (same : machine.calculator = compiler.calculator)
    (valued : tree.valueWithin compiler.calculator (compiler.options.decimals given)
      machine.maxCallDepth ⟨[], []⟩ = .ok value) (spanOf : Expr → Option Span)
    (source : Option String) :
    ∃ program, compiler.compileWith spanOf source expr = .ok program ∧
      (∀ slot ∈ program.slots, slot.type = .decimal ∧
        compiler.options.inputs.get? slot.name = some .decimal) ∧
      machine.evaluate program (program.slots.map fun slot => .decimal (given slot.name)) =
        .ok (.decimal value) := by
  have computes := compileWith_computes default returns (.evaluable compiler) simplified
    ⟨machine.maxCallDepth, given, [], value, rfl, valued⟩ spanOf source
  obtain ⟨program, compiled, computed⟩ := computes.exists_ok
  exact ⟨program, compiled, computed.slots, (computed.agrees machine same given).eq_ok valued⟩

end Compiler

/-- Where the program of a formula over decimals has a value on some inputs, the formula is also
    compiled with its definitions inlined, under any limits, and on the same inputs its program has
    the very same value. -/
theorem Compiler.compileWith_inlined (compiler : Compiler) (default : compiler.Default)
    (returns : compiler.options.expectReturn = .decimal)
    (inlining : compiler.options.OnlyInlines)
    (unrestricted : compiler.options.ignoreRestrictions = true ∨
      compiler.options.restrictions = [])
    (spanOf : Expr → Option Span) (source : Option String) (expr : Expr)
    (arithmetic : expr.Arithmetic compiler.options.inputs
      (fun name _ => MathFunction.OnDecimals name) [] [])
    (machine : Machine) (same : machine.calculator = compiler.calculator)
    (given : String → Decimal) (plain : Program) (value : Value)
    (compiled : Compiler.compileWith
      { compiler with options := compiler.options.withoutSimplification } spanOf source expr =
        .ok plain)
    (evaluated : machine.evaluate plain
      (plain.slots.map fun slot => .decimal (given slot.name)) = .ok value) :
    ∃ inlined, compiler.compileWith spanOf source expr = .ok inlined ∧
      (∀ slot ∈ inlined.slots, slot.type = .decimal ∧
        compiler.options.inputs.get? slot.name = some .decimal) ∧
      machine.evaluate inlined (inlined.slots.map fun slot => .decimal (given slot.name)) =
        .ok value := by
  let off : Compiler := { compiler with options := compiler.options.withoutSimplification }
  have offDefault : off.Default := ⟨default.builtins, default.strategies⟩
  have offReturns : off.options.expectReturn = .decimal := returns
  have computes := compileWith_computes offDefault offReturns (.arithmetic off)
    (simplified_of_disabled off rfl unrestricted expr)
    ⟨arithmetic, fun _ _ inner => by simp at inner⟩ spanOf source
  have agrees := (computes.of_ok compiled).agrees machine same given
  obtain ⟨d, valued, rfl⟩ := agrees.of_ok evaluated
  -- The tree keeps its value exactly, not only as a number.
  obtain ⟨_, kept, rfl⟩ := Expr.inline_gains compiler.calculator.respects_eq
    compiler.options.inlining machine.maxCallDepth expr d valued
  exact compileWith_evaluable default returns (simplified_of_inlining inlining unrestricted expr)
    same kept spanOf source

/-- Two calls of a function in the body of another one, one of them on a sum. -/
def sumOfHalves : Expr :=
  .define "half" ["a"] (.binary .div [.var "a", .number (.ofInt 2)])
    (.define "pair" ["b"]
      (.binary .add
        [.call "half" [.var "b"] true,
          .call "half" [.binary .add [.var "b", .number (.ofInt 1)]] true])
      (.call "pair" [.var "x"] true))

def inliningCompiler (inputs : Table Ty) : Compiler where
  options :=
    { inputs := inputs
      expectReturn := .decimal
      foldLiterals := false
      flattenChains := false
      simplifyExponents := false }

def callingCompiler (inputs : Table Ty) : Compiler :=
  { inliningCompiler inputs with
    options := (inliningCompiler inputs).options.withoutSimplification }

theorem sumOfHalves_inlined :
    ∃ inlined plain d,
      (callingCompiler [("x", .decimal)]).compile sumOfHalves = .ok plain ∧
      Machine.evaluate {} plain (plain.slots.map fun _ => .decimal (.ofInt 3)) =
        .ok (.decimal d) ∧
      d.equal ⟨35, 1⟩ = true ∧
      (inliningCompiler [("x", .decimal)]).compile sumOfHalves = .ok inlined ∧
      Machine.evaluate {} inlined (inlined.slots.map fun _ => .decimal (.ofInt 3)) =
        .ok (.decimal d) := by
  have arithmetic : sumOfHalves.Arithmetic (inliningCompiler [("x", .decimal)]).options.inputs
      (fun name _ => MathFunction.OnDecimals name) [] [] := by
    have x : (inliningCompiler [("x", .decimal)]).options.inputs.get? "x" = some .decimal := rfl
    simp [sumOfHalves, Expr.Arithmetic, Expr.ArithmeticAll, Operator.isArithmetic, x]
  have computed : (callingCompiler [("x", .decimal)]).yields sumOfHalves (.ofInt 3) ⟨35, 1⟩ =
      true := by decide +kernel
  obtain ⟨plain, d, compiled, evaluated, number⟩ := Compiler.exists_of_yields computed
  obtain ⟨inlined, compiles, -, evaluates⟩ :=
    (inliningCompiler [("x", .decimal)]).compileWith_inlined ⟨rfl, rfl⟩ rfl rfl (.inr rfl)
      (fun _ => none) none sumOfHalves arithmetic {} rfl (fun _ => .ofInt 3) plain _ compiled
      evaluated
  exact ⟨inlined, plain, d, compiled, evaluated, number, compiles, evaluates⟩

/-- `f'(x) = x / 2 > 0; f'(1)`. -/
def halfIsPositive : Expr :=
  .define "f" ["x"]
    (.binary .greater [.binary .div [.var "x", .number (.ofInt 2)], .number .zero])
    (.call "f" [.number (.ofInt 1)] true)

/-- Called, the function has a decimal as its argument, as the result is one. -/
def calledHalf : Program where
  root := .call 0 .decimal [.constant (.decimal (.ofInt 1))]
  functions :=
    [{ name := "f"
       parameters := [.decimal]
       returnType := .decimal
       body := .convert (.select .decimal)
        (.compare .greater
          (.arith .div .decimal (.parameter 0 .decimal) (.constant (.decimal (.ofInt 2))))
          (.constant (.decimal .zero))) }]

theorem Width.holds_two : Width.w32.Holds 2 := by decide

/-- In place of the call, nothing asks for decimals within the comparison. -/
def replacedHalf : Program where
  root := .convert (.select .decimal)
    (.compare .greater
      (.arith .div .int32 (.constant (.int32 ⟨1, by decide⟩)) (.constant (.int32 ⟨2, Width.holds_two⟩)))
      (.constant (.int32 ⟨0, by decide⟩)))

theorem halfIsPositive_differs :
    (callingCompiler []).compile halfIsPositive = .ok calledHalf ∧
      Machine.evaluate {} calledHalf [] = .ok (.decimal .one) ∧
      (inliningCompiler []).compile halfIsPositive = .ok replacedHalf ∧
      Machine.evaluate {} replacedHalf [] = .ok (.decimal .zero) :=
  ⟨rfl, rfl, rfl, rfl⟩

end Formulary
