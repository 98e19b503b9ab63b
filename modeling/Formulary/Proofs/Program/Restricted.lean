import Formulary.Proofs.Lowering.ScalarTree
import Formulary.Proofs.Simplify.Restriction

namespace Formulary

/-! Formulas under restrictions are compiled. The restrictions that come with simplified
    exponentials are checked ahead of the formula, outside all definitions. Simplification keeps
    parameters out of them, but not calls of local functions. -/

namespace Pass

/-- Passes that only put operands together. -/
def regroups : Pass → Bool
  | inline _ | exponents _ => false
  | flatten _ | fold _ _ => true

variable {compiler : Compiler} {place : Place} {expr : Expr}

theorem runAll_filter_cons (chosen : Pass → Bool) (pass : Pass) (rest : List Pass) (expr : Expr) :
    runAll ((pass :: rest).filter chosen) expr =
      let (tree, restrictions) := if chosen pass then pass.run expr else (expr, [])
      let (result, more) := runAll (rest.filter chosen) tree
      (result, restrictions ++ more) := by
  rw [List.filter_cons]
  split <;> rfl

theorem run_regroups {pass : Pass} (regroups : pass.regroups)
    (scalar : expr.Scalar compiler place [] []) :
    (pass.run expr).1.Scalar compiler place [] [] ∧ (pass.run expr).2 = [] := by
  cases pass with
  | inline _ | exponents _ => cases regroups
  | flatten keptApart => exact ⟨Expr.flatten_scalar keptApart scalar, rfl⟩
  | fold _ keptApart => exact ⟨Expr.foldLiterals_scalar keptApart scalar, rfl⟩

theorem runAll_regroups {passes : List Pass} (regroups : ∀ pass ∈ passes, pass.regroups)
    (scalar : expr.Scalar compiler place [] []) :
    (runAll passes expr).1.Scalar compiler place [] [] ∧ (runAll passes expr).2 = [] := by
  induction passes generalizing expr with
  | nil => exact ⟨scalar, rfl⟩
  | cons pass rest ih =>
    obtain ⟨kept, silent⟩ := run_regroups (regroups pass List.mem_cons_self) scalar
    obtain ⟨last, quiet⟩ := ih (fun other member =>
      regroups other (List.mem_cons_of_mem _ member)) kept
    refine ⟨last, ?_⟩
    change (pass.run expr).2 ++ (runAll rest (pass.run expr).1).2 = []
    rw [silent, quiet, List.append_nil]

end Pass

/-- What is asked of a formula of the given type. -/
def Place.ofType (type : Ty) : Place := if type = .bool then .condition else .scalar

theorem Place.Suits.ofType {type : Ty} (scalar : type.isScalar) :
    (Place.ofType type).Suits (some type) := by
  unfold Place.ofType
  split
  case isTrue truth => exact truth ▸ .condition
  case isFalse other => exact .of_numeric (Ty.isNumeric_of_isScalar scalar other)

namespace Compiler

variable {compiler : Compiler} {place : Place} {expr : Expr}

/-- The tree whose exponentials are simplified. -/
def inlined (compiler : Compiler) (expr : Expr) : Expr :=
  if compiler.options.inlining.enabled then expr.inline compiler.options.inlining else expr

/-- The passes after the simplification of exponentials. -/
def regrouping (compiler : Compiler) : List Pass :=
  [.flatten compiler.options.keptApart,
    .fold compiler.calculator compiler.options.keptApart].filter (Pass.enabled compiler.options)

/-- The tree with its exponentials simplified, and the restrictions that come with it. -/
def exponentsSimplified (compiler : Compiler) (expr : Expr) : Expr × List Expr :=
  if compiler.options.simplifyExponents then
    expr.simplifyExponents
      ⟨compiler.options.inputs.names, compiler.options.allowDomainChanges⟩ []
  else (expr, [])

theorem runAll_ofOptions (compiler : Compiler) (expr : Expr) :
    Pass.runAll (Pass.ofOptions compiler.options compiler.calculator) expr =
      let (tree, restrictions) := compiler.exponentsSimplified (compiler.inlined expr)
      let (result, more) := Pass.runAll compiler.regrouping tree
      (result, restrictions ++ more) := by
  have inlines : (if Pass.enabled compiler.options (.inline compiler.options.inlining) then
      Pass.run (.inline compiler.options.inlining) expr else (expr, [])) =
        (compiler.inlined expr, []) :=
    (apply_ite (fun tree => (tree, [])) _ _ _).symm
  unfold Pass.ofOptions Pass.all
  rw [Pass.runAll_filter_cons, inlines]
  dsimp only
  rw [Pass.runAll_filter_cons, List.nil_append]
  rfl

theorem exponentsSimplified_simplified (scalar : expr.Scalar compiler place [] []) :
    Expr.Simplified compiler place [] [] expr.definitions (compiler.exponentsSimplified expr) := by
  unfold exponentsSimplified
  split
  · exact Expr.simplifyExponents_simplified scalar (List.Subset.refl _) rfl (List.Subset.refl _)
  · exact ⟨scalar, fun _ member => absurd member List.not_mem_nil⟩

theorem simplified_scalar (scalar : (compiler.inlined expr).Scalar compiler place [] []) :
    (compiler.simplified expr).1.Scalar compiler place [] [] ∧
      ∀ restriction ∈ (compiler.simplified expr).2,
        restriction ∈ compiler.options.restrictions ∨
          restriction ∈ (compiler.exponentsSimplified (compiler.inlined expr)).2 := by
  have regroups : ∀ pass ∈ compiler.regrouping, pass.regroups := by
    intro pass member
    have listed := (List.mem_filter.mp member).1
    simp only [List.mem_cons, List.not_mem_nil, or_false] at listed
    rcases listed with rfl | rfl <;> rfl
  obtain ⟨tree, quiet⟩ := Pass.runAll_regroups regroups (exponentsSimplified_simplified scalar).tree
  unfold simplified
  rw [runAll_ofOptions]
  dsimp only
  rw [quiet, List.append_nil]
  refine ⟨tree, fun restriction member => ?_⟩
  split at member
  · cases member
  · exact List.mem_append.mp member

theorem compileWith_succeeds (default : compiler.Standard) (spanOf : Expr → Option Span)
    (source : Option String) (tree : (compiler.simplified expr).1.Scalar compiler place [] [])
    (suits : place.Suits (some compiler.options.expectReturn))
    (guards : ∀ restriction ∈ (compiler.simplified expr).2,
      restriction.Scalar compiler .condition [] []) :
    ∃ program, compiler.compileWith spanOf source expr = .ok program ∧
      program.restrictions = (compiler.simplified expr).2.map Expr.display := by
  have succeeds : LowerM.Succeeds (compiler.lowerGuarded spanOf (compiler.simplified expr).2
      (compiler.simplified expr).1) fun _ => True :=
    .bind (lowerTo_succeeds default spanOf tree suits) fun _ _ node _ =>
      guarded_succeeds default spanOf guards node
  unfold compileWith
  dsimp only
  split
  case h_1 error state failed =>
    obtain ⟨-, -, -, -, ⟨⟩⟩ := succeeds (.initial _) failed
  case h_2 root state lowered =>
    obtain ⟨-, functions, -, bodies, -⟩ :=
      compiler.lowerGuarded_finishes default.regular lowered
    rw [FunctionTable.finish_eq bodies]
    exact ⟨_, rfl, rfl⟩

/-- The compiler with the simplification of exponentials switched on or off. -/
def withExponents (compiler : Compiler) (simplify : Bool) : Compiler :=
  { compiler with options := { compiler.options with simplifyExponents := simplify } }

/-- A formula over numbers and truth values is compiled, whether its exponentials are simplified
    or not, provided that no restriction that this adds calls a local function. -/
theorem compileWith_restricted (compiler : Compiler) (default : compiler.Standard)
    (returns : compiler.options.expectReturn.isScalar)
    (conditions : ∀ restriction ∈ compiler.options.restrictions,
      restriction.Scalar compiler .condition [] [])
    (spanOf : Expr → Option Span) (source : Option String) (expr : Expr)
    (scalar : (compiler.inlined expr).Scalar compiler
      (.ofType compiler.options.expectReturn) [] [])
    (apart : ∀ restriction ∈ ((compiler.withExponents true).simplified expr).2,
      restriction ∈ compiler.options.restrictions ∨
        disjointNames (restriction.freeCallees []) (compiler.inlined expr).definitions)
    (simplify : Bool) :
    ∃ program, (compiler.withExponents simplify).compileWith spanOf source expr = .ok program ∧
      program.restrictions =
        ((compiler.withExponents simplify).simplified expr).2.map Expr.display := by
  have settings : ∀ {place : Place} {expr : Expr}, expr.Scalar compiler place [] [] →
      expr.Scalar (compiler.withExponents simplify) place [] [] :=
    .of_settings rfl rfl rfl
  have standard : (compiler.withExponents simplify).Standard :=
    ⟨default.catalog, default.builtins, default.strategies⟩
  have inlined : ((compiler.withExponents simplify).inlined expr).Scalar
      (compiler.withExponents simplify) (.ofType compiler.options.expectReturn) [] [] :=
    settings scalar
  obtain ⟨tree, emitted⟩ := simplified_scalar inlined
  refine compileWith_succeeds standard spanOf source tree (.ofType returns) ?_
  intro restriction member
  rcases emitted restriction member with given | added
  · exact settings (conditions restriction given)
  · cases simplify with
    | false => cases added
    | true =>
      rcases apart restriction member with given | free
      · exact settings (conditions restriction given)
      · exact (exponentsSimplified_simplified inlined).lifts restriction added free

end Compiler

/-- Formulas over a decimal `x`, which is not to be negative. Exponentials of logarithms are
    cancelled. -/
def cancelling : Compiler where
  options :=
    { inputs := [("x", .decimal)]
      expectReturn := .decimal
      allowDomainChanges := true
      restrictions := [.binary .less [.var "x", .number .zero]] }

/-- A formula below the definition `f'(n) = if(n <= 1, 1, n * f'(n - 1))`. -/
def belowProduct (value : Expr) : Expr :=
  .define "f" ["n"]
    (.call "if"
      [.binary .atMost [.var "n", .number (.ofInt 1)], .number (.ofInt 1),
        .binary .mul
          [.var "n", .call "f" [.binary .sub [.var "n", .number (.ofInt 1)]] true]] false)
    value

theorem cancelling_input (place : Place) (functions : List (String × Nat)) :
    Expr.Scalar cancelling place [] functions (.var "x") :=
  .input (by decide) rfl rfl fun _ => rfl

theorem belowProduct_scalar {place : Place} {value : Expr}
    (scalar : value.Scalar cancelling place [] [("f", 1)]) :
    (belowProduct value).Scalar cancelling place [] [] := by
  have counter : ∀ place, Expr.Scalar cancelling place ["n"] [("f", 1)] (.var "n") := fun _ =>
    .parameter (by decide)
  have less : Expr.Scalar cancelling .number ["n"] [("f", 1)]
      (.binary .sub [.var "n", .number (.ofInt 1)]) :=
    .pair (by decide) (counter _) (.number _)
  refine .define (by decide) (.choice rfl ?_ (.number _) ?_) scalar
  · exact .pair (by decide) (counter _) (.number _)
  · exact .pair (by decide) (counter _) (.call (by decide) rfl rfl (by simpa using less))

/-- `f'(x) * exp(ln(x + 1))` is compiled under the restriction that `x + 1` is positive. -/
theorem exponential_of_sum_restricted :
    let expr := belowProduct (.binary .mul
      [.call "f" [.var "x"] true,
        .call "exp" [.call "ln" [.binary .add [.var "x", .number (.ofInt 1)]] false] false])
    (∀ restriction ∈ ((cancelling.withExponents true).simplified expr).2,
      restriction ∈ cancelling.options.restrictions ∨
        disjointNames (restriction.freeCallees []) (cancelling.inlined expr).definitions) ∧
    ∃ program, (cancelling.withExponents true).compile expr = .ok program ∧
      program.restrictions = ["x < 0", "x + 1 <= 0"] := by
  intro expr
  have same : cancelling.inlined expr = expr := rfl
  have restrictions : ((cancelling.withExponents true).simplified expr).2 =
      [.binary .less [.var "x", .number .zero],
        .binary .atMost [.binary .add [.var "x", .number (.ofInt 1)], .number .zero]] := rfl
  have sum : Expr.Scalar cancelling .number [] [("f", 1)]
      (.binary .add [.var "x", .number (.ofInt 1)]) :=
    .pair (by decide) (cancelling_input _ _) (.number _)
  have scalar : (cancelling.inlined expr).Scalar cancelling (.ofType .decimal) [] [] := by
    rw [same]
    refine belowProduct_scalar (.pair (by decide) ?_ ?_)
    · exact .call (by decide) rfl rfl (by simpa using cancelling_input _ _)
    · have logarithm : Expr.Scalar cancelling .number [] [("f", 1)]
          (.call MathFunction.ln.name [.binary .add [.var "x", .number (.ofInt 1)]] false) :=
        .exponential (by decide) (.inr rfl) rfl sum
      have either : MathFunction.exp = .exp ∨ MathFunction.exp = .ln := .inl rfl
      exact .exponential (by decide) either rfl logarithm
  have given : ∀ restriction ∈ cancelling.options.restrictions,
      restriction.Scalar cancelling .condition [] [] := by
    intro restriction member
    cases List.mem_singleton.mp member
    exact .pair (by decide) (cancelling_input _ _) (.number _)
  have apart : ∀ restriction ∈ ((cancelling.withExponents true).simplified expr).2,
      restriction ∈ cancelling.options.restrictions ∨
        disjointNames (restriction.freeCallees []) (cancelling.inlined expr).definitions := by
    rw [restrictions, same, List.forall_mem_cons, List.forall_mem_singleton]
    exact ⟨.inl List.mem_cons_self, .inr rfl⟩
  obtain ⟨program, compiled, listed⟩ := Compiler.compileWith_restricted cancelling
    ⟨rfl, rfl, rfl⟩ rfl given (fun _ => none) none expr scalar apart true
  refine ⟨apart, program, compiled, ?_⟩
  rw [listed, restrictions]
  rfl

/-- `exp(ln(f'(x)))` is compiled as it stands, but not when it is simplified to `f'(x)` under a
    restriction that calls `f`. -/
theorem exponential_of_local_unrestricted :
    let expr := belowProduct (.call "exp" [.call "ln" [.call "f" [.var "x"] true] false] false)
    ((cancelling.withExponents false).compile expr).toBool = true ∧
    (cancelling.withExponents true).compile expr =
      .error (.located (.call "f" [.var "x"] true) none (.unknownFunction "f")) := by
  intro expr
  exact ⟨by decide +kernel, rfl⟩

end Formulary
