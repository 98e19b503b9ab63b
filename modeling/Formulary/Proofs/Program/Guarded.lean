import Formulary.Proofs.Lowering.Transition
import Formulary.Proofs.Program.Restricted

namespace Formulary

/-! The guards of a program are an ordered list of preconditions. The first one that fails or
    that is violated decides the outcome, and the guarded node is evaluated only when there is
    no such guard. -/

namespace Node

/-- A node under guards, each with its text and condition, the first outermost. -/
def under (guards : List (String × Node)) (body : Node) : Node :=
  guards.foldr (fun guard body => .guard guard.1 guard.2 body) body

/-- What a guard refuses with: the error of its condition, or a violation where that is true. -/
def refusal (eval : Node → Except EvalError Value) (guard : String × Node) : Option EvalError :=
  match eval guard.2 >>= fun value => EvalError.lift value.truth with
  | .error error => some error
  | .ok true => some (.domainViolation guard.1)
  | .ok false => none

variable {calculator : Calculator} {call : Nat → List Value → Except EvalError Value}
variable {slots parameters : List Value}

theorem evalWith_guard (text : String) (condition body : Node) :
    evalWith calculator call slots parameters (.guard text condition body) =
      (refusal (evalWith calculator call slots parameters) (text, condition)).elim
        (evalWith calculator call slots parameters body) .error := by
  rw [evalWith, refusal, ← bind_assoc]
  cases evalWith calculator call slots parameters condition >>= fun value =>
      EvalError.lift value.truth with
  | error error => rfl
  | ok holds => cases holds <;> rfl

theorem evalWith_under (guards : List (String × Node)) (body : Node) :
    evalWith calculator call slots parameters (under guards body) =
      (guards.findSome? (refusal (evalWith calculator call slots parameters))).elim
        (evalWith calculator call slots parameters body) .error := by
  induction guards with
  | nil => rfl
  | cons guard rest ih =>
    have outer : under (guard :: rest) body = .guard guard.1 guard.2 (under rest body) := rfl
    rw [outer, evalWith_guard, ih, List.findSome?_cons]
    cases refusal (evalWith calculator call slots parameters) guard <;> rfl

end Node

namespace Compiler

variable {compiler : Compiler} {spanOf : Expr → Option Span}

/-- The conditions of a list of restrictions, which are lowered from the last to the first. -/
def lowerConditions (compiler : Compiler) (spanOf : Expr → Option Span)
    (restrictions : List Expr) : LowerM (List Node) :=
  List.reverse <$> restrictions.reverse.mapM (compiler.lowerTo spanOf .bool)

theorem lowerConditions_cons (restriction : Expr) (rest : List Expr) :
    compiler.lowerConditions spanOf (restriction :: rest) = do
      let conditions ← compiler.lowerConditions spanOf rest
      let condition ← compiler.lowerTo spanOf .bool restriction
      return condition :: conditions := by
  simp [lowerConditions, List.mapM_append]

theorem guarded_cons (restriction : Expr) (rest : List Expr) (body : Node) :
    compiler.guarded spanOf (restriction :: rest) body = do
      let inner ← compiler.guarded spanOf rest body
      let condition ← compiler.lowerTo spanOf .bool restriction
      return .guard restriction.display condition inner := by
  simp [guarded, List.foldlM_append]

theorem guarded_eq (restrictions : List Expr) (body : Node) :
    compiler.guarded spanOf restrictions body = do
      let conditions ← compiler.lowerConditions spanOf restrictions
      return .under ((restrictions.map Expr.display).zip conditions) body := by
  induction restrictions with
  | nil => rfl
  | cons restriction rest ih =>
    rw [guarded_cons, lowerConditions_cons, ih]
    simp [Node.under]

theorem length_lowerConditions {restrictions : List Expr} {conditions : List Node}
    {before after : LowerState}
    (lowered : compiler.lowerConditions spanOf restrictions before = (.ok conditions, after)) :
    conditions.length = restrictions.length := by
  rw [lowerConditions, map_eq_pure_bind, LowerM.bind_apply] at lowered
  split at lowered
  case h_2 => cases lowered
  case h_1 nodes middle run =>
    cases lowered
    rw [List.length_reverse, LowerM.length_of_mapM run, List.length_reverse]

theorem guarded_apply {restrictions : List Expr} {conditions : List Node}
    {before after : LowerState} (body : Node)
    (lowered : compiler.lowerConditions spanOf restrictions before = (.ok conditions, after)) :
    compiler.guarded spanOf restrictions body before =
      (.ok (.under ((restrictions.map Expr.display).zip conditions) body), after) := by
  rw [guarded_eq, LowerM.bind_apply, lowered]
  rfl

theorem lowerGuarded_inv {restrictions : List Expr} {expr : Expr} {root : Node}
    {before after : LowerState}
    (lowered : compiler.lowerGuarded spanOf restrictions expr before = (.ok root, after)) :
    ∃ body middle conditions,
      compiler.lowerTo spanOf compiler.options.expectReturn expr before = (.ok body, middle) ∧
      compiler.lowerConditions spanOf restrictions middle = (.ok conditions, after) ∧
      root = .under ((restrictions.map Expr.display).zip conditions) body := by
  simp only [lowerGuarded, guarded_eq, LowerM.bind_apply] at lowered
  split at lowered
  case h_2 => cases lowered
  case h_1 body middle first =>
    split at lowered
    case h_2 => cases lowered
    case h_1 conditions last second =>
      cases lowered
      exact ⟨body, middle, conditions, first, second, rfl⟩

/-- Guards are checked in the order of their restrictions, those of the options before those of
    the passes, and a program lists their texts in this order. -/
theorem guarded_ordered (compiler : Compiler) (spanOf : Expr → Option Span) :
    (∀ restrictions body before conditions after,
      compiler.lowerConditions spanOf restrictions before = (.ok conditions, after) →
      conditions.length = restrictions.length ∧
      ∃ node, compiler.guarded spanOf restrictions body before = (.ok node, after) ∧
        ∀ calculator call slots parameters,
          let eval := Node.evalWith calculator call slots parameters
          eval node = (((restrictions.map Expr.display).zip conditions).findSome?
            (Node.refusal eval)).elim (eval body) .error) ∧
    ∀ source expr program, compiler.compileWith spanOf source expr = .ok program →
      let (simple, emitted) :=
        Pass.runAll (Pass.ofOptions compiler.options compiler.calculator) expr
      let restrictions := if compiler.options.ignoreRestrictions then []
        else compiler.options.restrictions ++ emitted
      program.restrictions = restrictions.map Expr.display ∧
      ∃ body middle conditions after,
        compiler.lowerTo spanOf compiler.options.expectReturn simple {} = (.ok body, middle) ∧
        compiler.lowerConditions spanOf restrictions middle = (.ok conditions, after) ∧
        program.root = .under (program.restrictions.zip conditions) body := by
  refine ⟨?_, ?_⟩
  · intro restrictions body before conditions after lowered
    exact ⟨length_lowerConditions lowered, _, guarded_apply body lowered,
      fun _ _ _ _ => Node.evalWith_under _ body⟩
  · intro source expr program compiled
    obtain ⟨state, lowered, -, -, -, listed, -⟩ := compileWith_eq_ok_iff.mp compiled
    obtain ⟨body, middle, conditions, first, second, built⟩ := lowerGuarded_inv lowered
    refine ⟨listed, body, middle, conditions, state, first, second, ?_⟩
    rw [listed]
    exact built

end Compiler

/-- Under `x < 0` and `1 % x < 1` the first is violated at `-1`, where the second is true as
    well. At `0` the second fails, and at `2` both are false. The formula `exp(ln(x + 1))` has the
    restriction of the options as its outer guard. -/
theorem remainder_ordered :
    (let restrictions : List Expr :=
      [.binary .less [.var "x", .number .zero],
        .binary .less [.binary .rem [.number (.ofInt 1), .var "x"], .number (.ofInt 1)]]
    ∃ conditions after,
      cancelling.lowerConditions (fun _ => none) restrictions {} = (.ok conditions, after) ∧
      ∃ node, cancelling.guarded (fun _ => none) restrictions (.slot 0 .decimal) {} =
          (.ok node, after) ∧
        let eval (value : Decimal) :=
          node.evalWith .standard (fun index _ => .error (.unknownFunction index))
            [.decimal value] []
        eval (.ofInt (-1)) = .error (.domainViolation "x < 0") ∧
        eval .zero = .error (.fault .divisionByZero) ∧
        eval (.ofInt 2) = .ok (.decimal (.ofInt 2))) ∧
    ∃ program body conditions,
      cancelling.compile (.call "exp" [.call "ln"
        [.binary .add [.var "x", .number (.ofInt 1)]] false] false) = .ok program ∧
      program.restrictions = ["x < 0", "x + 1 <= 0"] ∧
      program.root = .under (program.restrictions.zip conditions) body := by
  refine ⟨?_, ?_⟩
  · intro restrictions
    let conditions : List Node :=
      [.compare .less (.slot 0 .decimal) (.constant (.decimal .zero)),
        .compare .less
          (.arith .rem .decimal (.constant (.decimal (.ofInt 1))) (.slot 0 .decimal))
          (.constant (.decimal (.ofInt 1)))]
    have lowered : cancelling.lowerConditions (fun _ => none) restrictions {} =
        (.ok conditions, { slots := [⟨"x", .decimal⟩] }) := rfl
    obtain ⟨-, node, built, outcome⟩ :=
      (Compiler.guarded_ordered cancelling (fun _ => none)).1 restrictions (.slot 0 .decimal) {}
        conditions _ lowered
    refine ⟨conditions, _, lowered, node, built, ?_⟩
    dsimp only at outcome ⊢
    rw [outcome, outcome, outcome]
    exact ⟨rfl, rfl, rfl⟩
  · generalize tree : Expr.call "exp" [.call "ln"
      [.binary .add [.var "x", .number (.ofInt 1)]] false] false = expr
    have succeeds : (cancelling.compile expr).toBool = true := by
      rw [← tree]
      rfl
    cases compiled : cancelling.compile expr with
    | error error =>
      rw [compiled] at succeeds
      cases succeeds
    | ok program =>
      obtain ⟨listed, body, -, conditions, -, -, -, built⟩ :=
        (Compiler.guarded_ordered cancelling (fun _ => none)).2 none expr program compiled
      refine ⟨program, body, conditions, rfl, ?_, built⟩
      rw [listed, ← tree]
      rfl

end Formulary
