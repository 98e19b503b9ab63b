import Formulary.Proofs.Expr.Names
import Formulary.Proofs.Lowering.Grouping
import Formulary.Proofs.Semantics.Compile

namespace Formulary

/-! An operator with more than two operands means a fold from the left, unless its operands have
    different types. -/

namespace Compiler

variable {compiler : Compiler} {spanOf : Expr → Option Span} {op : Operator} {state : LowerState}

theorem maxParameters_concat (op : Operator) (exprs : List Expr) (last : Expr) :
    maxParameters (.binary op (exprs ++ [last])) =
      max (maxParameters (.binary op exprs)) (maxParameters last) := by
  have greatest (counts : List Nat) (start : Nat) :
      counts.foldl max start = max start (counts.foldl max 0) := by
    have joined : max start (counts.foldl max 0) = counts.foldl max (max start 0) :=
      List.foldl_assoc.symm
    rw [joined, Nat.max_zero]
  simp only [maxParameters, Expr.subtrees, Expr.subtreesAll_eq, List.flatMap_append,
    List.flatMap_singleton, List.map_cons, List.map_append, List.foldl_cons, List.foldl_append]
  exact greatest _ _

theorem maxParameters_single (op : Operator) (expr : Expr) :
    maxParameters (.binary op [expr]) = maxParameters expr := by
  simp [maxParameters, Expr.subtrees, Expr.subtreesAll_eq]

theorem maxParameters_leftNested (op : Operator) (first : Expr) (rest : List Expr) :
    maxParameters (.leftNested op first rest) = maxParameters (.binary op (first :: rest)) := by
  induction rest using List.reverseRecOn with
  | nil => exact (maxParameters_single op first).symm
  | append_singleton rest last ih =>
    rw [Expr.leftNested_concat, ← List.cons_append, maxParameters_concat, ← ih]
    exact (maxParameters_concat op [_] last).trans (by rw [maxParameters_single])

theorem nestingBound_leftNested (op : Operator) (first : Expr) (rest : List Expr) :
    compiler.nestingBound (.leftNested op first rest) =
      compiler.nestingBound (.binary op (first :: rest)) := by
  have definitions : (Expr.leftNested op first rest).definitions =
      (Expr.binary op (first :: rest)).definitions := by
    induction rest using List.reverseRecOn with
    | nil => simp [Expr.leftNested]
    | append_singleton rest last ih => simp_all [Expr.leftNested_concat]
  rw [nestingBound, nestingBound, definitions, maxParameters_leftNested]

/-- The operands of an operator at the root of a formula. -/
def rootOperands (compiler : Compiler) (spanOf : Expr → Option Span) (op : Operator)
    (exprs : List Expr) : List Operand :=
  exprs.map <| compiler.operandWith spanOf
    (compiler.lowerWithin spanOf (compiler.nestingBound (.binary op exprs) - 1))
    { hint := some compiler.options.expectReturn }

/-- Where it makes no difference how the operands of an operator are grouped: in powers, between
    truth values, and in arithmetic on operands of one type. -/
inductive Unmixed (compiler : Compiler) (spanOf : Expr → Option Span) :
    Operator → List Expr → Prop
  | power {exprs : List Expr}
      (regular : ∀ strategy ∈ compiler.strategies, strategy.isCustom = false) :
      Unmixed compiler spanOf .power exprs
  | logical {op : Operator} {exprs : List Expr} (logical : op.isLogical = true)
      (keeps : compiler.catalog.KeepsTruth) : Unmixed compiler spanOf op exprs
  | arithmetic {op : Operator} {exprs : List Expr} (type : Ty)
      (arithmetic : op.isArithmetic = true) (other : op ≠ .power)
      (numeric : type.isNumeric = true)
      (uniform : Operand.HaveType compiler.catalog (some compiler.options.expectReturn) type
        (compiler.rootOperands spanOf op exprs) {}) : Unmixed compiler spanOf op exprs

theorem lowerTo_eq (type : Ty) (expr : Expr) :
    compiler.lowerTo spanOf type expr =
      (compiler.operandWith spanOf (compiler.lowerWithin spanOf (compiler.nestingBound expr - 1))
        { hint := some type } expr).lowerAs compiler.catalog type := by
  obtain ⟨depth, bound⟩ := Nat.exists_eq_succ_of_ne_zero
    (Nat.ne_zero_of_lt (compiler.length_definitions_lt_nestingBound expr))
  rw [lowerTo, bound]
  rfl

theorem lowerTo_leftNested {first second : Expr} {rest : List Expr}
    (unmixed : compiler.Unmixed spanOf op (first :: second :: rest)) :
    LowerM.Alike {} Node.Equivalent
      (compiler.lowerTo spanOf compiler.options.expectReturn (.binary op (first :: second :: rest)))
      (compiler.lowerTo spanOf compiler.options.expectReturn
        (.leftNested op first (second :: rest))) := by
  obtain ⟨before, last, split⟩ : ∃ before last, second :: rest = before ++ [last] :=
    (List.eq_nil_or_concat' (second :: rest)).resolve_left (List.cons_ne_nil _ _)
  rw [split] at unmixed ⊢
  rw [lowerTo_eq, lowerTo_eq, nestingBound_leftNested]
  refine .bind (?_ : LowerM.Alike {} Node.Equivalent _ _) fun after node node' same => ?_
  · cases unmixed with
    | power regular =>
      exact LowerM.Alike.mono (lower_power_alike regular first before last _)
        fun node _ same => same ▸ .refl node
    | logical logical keeps => exact lower_logical_leftNested keeps logical first before last _
    | arithmetic type arithmetic other numeric uniform =>
      exact LowerM.Alike.mono
        (lower_arithmetic_leftNested numeric arithmetic other first before last _ uniform)
        fun node _ same => same ▸ .refl node
  · exact .locating _ _ _ _ (.lift (same.coerce _ _))

theorem guarded_alike (restrictions : List Expr) {body body' : Node}
    (same : Node.Equivalent body body') :
    LowerM.Alike state Node.Equivalent (compiler.guarded spanOf restrictions body)
      (compiler.guarded spanOf restrictions body') := by
  unfold guarded
  induction restrictions.reverse generalizing state body body' with
  | nil => exact .pure same
  | cons restriction others ih =>
    rw [List.foldlM_cons, List.foldlM_cons, bind_assoc, bind_assoc]
    exact .andThen _ fun after condition => ih (same.guard restriction.display condition)

theorem simplified_of_withoutSimplification
    (disabled : compiler.options = compiler.options.withoutSimplification) (expr : Expr) :
    compiler.simplified expr = (expr,
      if compiler.options.ignoreRestrictions then [] else compiler.options.restrictions) := by
  have passes : Pass.ofOptions compiler.options compiler.calculator = [] := by
    rw [disabled]
    rfl
  simp [simplified, passes, Pass.runAll]

end Compiler

theorem Machine.call_congr (machine : Machine) {program other : Program}
    (same : program.functions = other.functions) (slots : List Value) (depth : Nat) :
    machine.call program slots depth = machine.call other slots depth := by
  induction depth with
  | zero => funext index arguments; rw [call, call, same]
  | succ depth ih => funext index arguments; rw [call, call, same, ih]

/-- Whatever their roots look like, programs with equivalent roots have the same outcomes. -/
theorem Machine.evaluate_congr (machine : Machine) {program other : Program}
    (slots : program.slots = other.slots) (functions : program.functions = other.functions)
    (roots : Node.Equivalent program.root other.root) (inputs : List Value) :
    machine.evaluate program inputs = machine.evaluate other inputs := by
  rw [evaluate, evaluate, slots, machine.call_congr functions, roots.eval]

/-- Without simplification, an operator with two or more operands is compiled to a program that
    has the same inputs and the same outcomes as the program of the operands nested from the
    left, or neither of them is compiled. In arithmetic this takes operands of one type, since all
    operands of a node are brought to one type before the first two are combined. -/
theorem Compiler.compileWith_leftNested (compiler : Compiler)
    (disabled : compiler.options = compiler.options.withoutSimplification)
    (spanOf : Expr → Option Span) (source : Option String) (op : Operator) (first second : Expr)
    (rest : List Expr) (unmixed : compiler.Unmixed spanOf op (first :: second :: rest)) :
    Matches
      (fun listed nested => listed.slots = nested.slots ∧ ∀ (machine : Machine) inputs,
        machine.evaluate listed inputs = machine.evaluate nested inputs)
      (fun _ _ => True)
      (compiler.compileWith spanOf source (.binary op (first :: second :: rest)))
      (compiler.compileWith spanOf source (.leftNested op first (second :: rest))) := by
  simp only [compileWith, simplified_of_withoutSimplification disabled]
  generalize (if compiler.options.ignoreRestrictions then [] else compiler.options.restrictions) =
    restrictions
  have guarded : LowerM.Alike {} Node.Equivalent
      (compiler.lowerGuarded spanOf restrictions (.binary op (first :: second :: rest)))
      (compiler.lowerGuarded spanOf restrictions (.leftNested op first (second :: rest))) :=
    (lowerTo_leftNested unmixed).bind fun _ _ _ same => guarded_alike restrictions same
  obtain ⟨states, roots⟩ := guarded
  generalize compiler.lowerGuarded spanOf restrictions (.binary op (first :: second :: rest)) {} =
    listed at states roots ⊢
  generalize compiler.lowerGuarded spanOf restrictions (.leftNested op first (second :: rest)) {} =
    nested at states roots ⊢
  obtain ⟨outcome, state⟩ := listed
  obtain ⟨outcome', state'⟩ := nested
  obtain rfl : state = state' := states
  match outcome, outcome', roots with
  | .error _, .error _, _ => trivial
  | .ok root, .ok root', same =>
    dsimp only
    cases state.functions.finish with
    | error error => trivial
    | ok functions =>
      exact ⟨rfl, fun machine => machine.evaluate_congr rfl rfl same⟩

/-- A local function among operands of 64 bits. -/
def doubled : Expr :=
  .define "double" ["a"] (.binary .add [.var "a", .var "a"]) (.call "double" [.var "x"] true)

def wideCompiler : Compiler where
  options :=
    { inputs := [("x", .int64), ("y", .int64)]
      expectReturn := .int64
      restrictions := [.binary .equal [.var "y", .number (.ofInt 0)]]
      inlining := { enabled := false }
      foldLiterals := false
      flattenChains := false
      simplifyExponents := false }

theorem quotient_leftNested :
    wideCompiler.Unmixed (fun _ => none) .power [doubled, .var "y", .number (.ofInt 3)] ∧
      wideCompiler.Unmixed (fun _ => none) .nand [doubled, .var "y", .number (.ofInt 3)] ∧
      wideCompiler.Unmixed (fun _ => none) .div [doubled, .var "y", .number (.ofInt 3)] ∧
      ∃ listed nested,
        wideCompiler.compile (.binary .div [doubled, .var "y", .number (.ofInt 3)]) =
          .ok listed ∧
        wideCompiler.compile
          (.binary .div [.binary .div [doubled, .var "y"], .number (.ofInt 3)]) = .ok nested ∧
        ∀ inputs, Machine.evaluate {} listed inputs = Machine.evaluate {} nested inputs := by
  have types : Operand.numberTypes wideCompiler.catalog (some .int64)
      (wideCompiler.rootOperands (fun _ => none) .div
        [doubled, .var "y", .number (.ofInt 3)]) {} = [.int64, .int64, .int64] := rfl
  have unmixed : wideCompiler.Unmixed (fun _ => none) .div
      [doubled, .var "y", .number (.ofInt 3)] :=
    .arithmetic .int64 rfl (by decide) rfl fun other member => by
      have listed := types ▸ member
      simpa using listed
  have compiles : (wideCompiler.compile
      (.binary .div [doubled, .var "y", .number (.ofInt 3)])).toBool = true := rfl
  have same := wideCompiler.compileWith_leftNested rfl (fun _ => none) none .div doubled
    (.var "y") [.number (.ofInt 3)] unmixed
  refine ⟨.power (by decide), .logical rfl Catalog.keepsTruth_standard, unmixed, ?_⟩
  cases listed : wideCompiler.compile
      (.binary .div [doubled, .var "y", .number (.ofInt 3)]) with
  | error error =>
    rw [listed] at compiles
    cases compiles
  | ok program =>
    obtain ⟨nested, compiled, -, outcomes⟩ := same.of_ok listed
    exact ⟨program, nested, rfl, compiled, outcomes {}⟩

/-- Two factors of 32 bits and one of 64. -/
def mixedCompiler : Compiler where
  options :=
    { inputs := [("x", .int32), ("y", .int32), ("z", .int64)]
      expectReturn := .int64
      inlining := { enabled := false }
      foldLiterals := false
      flattenChains := false
      simplifyExponents := false }

/-- Listed factors are all brought to 64 bits. -/
def wideProduct : Program where
  root := .arith .mul .int64
    (.arith .mul .int64 (.convert (.cast .int32 .int64) (.slot 0 .int32))
      (.convert (.cast .int32 .int64) (.slot 1 .int32)))
    (.slot 2 .int64)
  slots := [⟨"x", .int32⟩, ⟨"y", .int32⟩, ⟨"z", .int64⟩]

/-- In nested factors the first two are multiplied with 32 bits. -/
def narrowProduct : Program where
  root := .arith .mul .int64
    (.convert (.cast .int32 .int64) (.arith .mul .int32 (.slot 0 .int32) (.slot 1 .int32)))
    (.slot 2 .int64)
  slots := [⟨"x", .int32⟩, ⟨"y", .int32⟩, ⟨"z", .int64⟩]

theorem mixedProduct_differs :
    mixedCompiler.compile (.binary .mul [.var "x", .var "y", .var "z"]) = .ok wideProduct ∧
      Machine.evaluate {} wideProduct
          [.int32 ⟨100000, by decide⟩, .int32 ⟨100000, by decide⟩, .int64 ⟨1, by decide⟩] =
        .ok (.int64 ⟨10000000000, by decide⟩) ∧
      mixedCompiler.compile (.leftNested .mul (.var "x") [.var "y", .var "z"]) =
        .ok narrowProduct ∧
      Machine.evaluate {} narrowProduct
          [.int32 ⟨100000, by decide⟩, .int32 ⟨100000, by decide⟩, .int64 ⟨1, by decide⟩] =
        .error (.fault (.overflow "100000 * 100000")) :=
  ⟨rfl, rfl, rfl, rfl⟩

end Formulary
