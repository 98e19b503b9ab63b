import Formulary.Lowering.Tree
import Formulary.Proofs.Lowering.Agreement
import Formulary.Proofs.Lowering.Alike
import Formulary.Proofs.Semantics.Operation

namespace Formulary

/-! Operators with more than two operands, against the same operands in pairs from the left. -/

/-- `(..((first op second) op third)..) op last`. -/
def Expr.leftNested (op : Operator) (first : Expr) (rest : List Expr) : Expr :=
  rest.foldl (fun left right => .binary op [left, right]) first

theorem Expr.leftNested_concat (op : Operator) (first : Expr) (rest : List Expr) (last : Expr) :
    leftNested op first (rest ++ [last]) = .binary op [leftNested op first rest, last] :=
  List.foldl_concat _ first last rest

/-- Truth values become numbers by the choice of one or zero, and the other way by a comparison
    with zero. -/
structure Catalog.KeepsTruth (catalog : Catalog) : Prop where
  asNumber : catalog.path? .bool .int32 = some [.select .int32]
  asTruth : catalog.path? .int32 .bool = some [.nonzero .int32]

theorem Catalog.keepsTruth_standard : Catalog.standard.KeepsTruth where
  asNumber := rfl
  asTruth := rfl

namespace Node

/-- A truth value as a number and back. -/
def regained (node : Node) : Node := .convert (.nonzero .int32) (.convert (.select .int32) node)

theorem evalWith_logic_cases (calculator : Calculator)
    (call : Nat → List Value → Except EvalError Value) (slots parameters : List Value)
    (op : Operator) (left right : Node) :
    (∃ error, evalWith calculator call slots parameters (.logic op left right) = .error error) ∨
      ∃ truth, evalWith calculator call slots parameters (.logic op left right) =
        .ok (.bool truth) := by
  cases outcome : evalWith calculator call slots parameters (.logic op left right) with
  | error error => exact .inl ⟨error, rfl⟩
  | ok value =>
    simp only [evalWith, bind_eq_ok] at outcome
    obtain ⟨_, _, _, _, truth, _, returned⟩ := outcome
    cases returned
    exact .inr ⟨truth, rfl⟩

theorem regained_equivalent (op : Operator) (left right : Node) :
    Equivalent (.logic op left right) (regained (.logic op left right)) where
  ty := rfl
  eval calculator call slots parameters := by
    rw [regained, evalWith, evalWith]
    rcases evalWith_logic_cases calculator call slots parameters op left right with
      ⟨error, outcome⟩ | ⟨truth, outcome⟩ <;> rw [outcome]
    · rfl
    · cases truth <;> rfl
  constants := by simp [regained]

theorem materialize_logic {catalog : Catalog} (keeps : catalog.KeepsTruth) (op : Operator)
    (left right : Node) :
    catalog.materialize none (.logic op left right) =
      .ok (.convert (.select .int32) (.logic op left right)) := by
  simp [Catalog.materialize, Catalog.coerce, numericHint, ty, keeps.asNumber, converted]

theorem coerce_select {catalog : Catalog} (keeps : catalog.KeepsTruth) (node : Node) :
    catalog.coerce (.convert (.select .int32) node) .bool = .ok node.regained := by
  simp [Catalog.coerce, ty, Step.target, keeps.asTruth, converted, regained]

end Node

namespace Operand

variable {state : LowerState}

/-- The operands lowered in order and combined from the left. -/
def combined (lower : Operand → LowerM Node) (combine : Node → Node → Node)
    (operands : List Operand) : LowerM Node := do
  foldNodes combine (← operands.mapM lower)

theorem combined_single (lower : Operand → LowerM Node) (combine : Node → Node → Node)
    (operand : Operand) : combined lower combine [operand] = lower operand := by
  simp [combined, foldNodes]

theorem combined_concat (lower : Operand → LowerM Node) (combine : Node → Node → Node)
    (first : Operand) (rest : List Operand) (last : Operand) :
    combined lower combine (first :: (rest ++ [last])) = do
      let left ← combined lower combine (first :: rest)
      return combine left (← lower last) := by
  simp [combined, foldNodes]

theorem combined_pair (lower : Operand → LowerM Node) (combine : Node → Node → Node)
    (left right : Operand) :
    combined lower combine [left, right] = do
      let first ← lower left
      return combine first (← lower right) := by
  simp [combined, foldNodes]

theorem combined_alike {lower : Operand → LowerM Node} {combine : Node → Node → Node}
    {related : Node → Node → Prop} {first nested : Operand} {rest : List Operand}
    (before : LowerM.Alike state related (combined lower combine (first :: rest)) (lower nested))
    (combines : ∀ left left' right, related left left' →
      related (combine left right) (combine left' right)) (last : Operand) :
    LowerM.Alike state related (combined lower combine (first :: (rest ++ [last])))
      (combined lower combine [nested, last]) := by
  rw [combined_concat, combined_pair]
  refine before.bind fun after left left' lefts => ?_
  exact .andThen _ fun after right => .pure (combines left left' right lefts)

def truth (catalog : Catalog) (operand : Operand) : LowerM Node := do
  let node ← operand.lower none
  operand.locating (catalog.coerce node .bool)

def number (catalog : Catalog) (hint : Option Ty) (operand : Operand) : LowerM Node := do
  let node ← operand.lower (numericHint hint)
  operand.locating (catalog.numeric hint node)

/-- The types of operands as numbers, in order, up to the first operand that cannot be lowered. -/
def numberTypes (catalog : Catalog) (hint : Option Ty) : List Operand → LowerState → List Ty
  | [], _ => []
  | operand :: rest, state =>
    match operand.number catalog hint state with
    | (.ok node, after) => node.ty :: numberTypes catalog hint rest after
    | (.error _, _) => []

theorem numberTypes_append {catalog : Catalog} {hint : Option Ty} {operands : List Operand}
    {after : LowerState} {nodes : List Node} (more : List Operand)
    (run : operands.mapM (number catalog hint) state = (.ok nodes, after)) :
    numberTypes catalog hint (operands ++ more) state =
      nodes.map Node.ty ++ numberTypes catalog hint more after := by
  induction operands generalizing state nodes with
  | nil =>
    cases run
    rfl
  | cons operand rest ih =>
    rw [List.mapM_cons, LowerM.bind_apply] at run
    rcases first : operand.number catalog hint state with ⟨_ | node, middle⟩
    · rw [first] at run
      cases run
    · simp only [first, LowerM.bind_apply] at run
      rcases others : rest.mapM (number catalog hint) middle with ⟨_ | nodes', last⟩
      · rw [others] at run
        cases run
      · rw [others] at run
        cases run
        have types := ih others
        simp [numberTypes, first, types]

/-- As far as they can be lowered, the operands are numbers of the type. -/
def HaveType (catalog : Catalog) (hint : Option Ty) (type : Ty) (operands : List Operand)
    (state : LowerState) : Prop :=
  ∀ other ∈ numberTypes catalog hint operands state, other = type

theorem HaveType.before {catalog : Catalog} {hint : Option Ty} {type : Ty}
    {operands more : List Operand} (uniform : HaveType catalog hint type (operands ++ more) state) :
    HaveType catalog hint type operands state := by
  induction operands generalizing state with
  | nil => exact fun _ member => nomatch member
  | cons operand rest ih =>
    rw [HaveType, List.cons_append, numberTypes] at uniform
    rw [HaveType, numberTypes]
    split
    · rename_i run
      rw [run] at uniform
      obtain ⟨first, others⟩ := List.forall_mem_cons.mp uniform
      exact List.forall_mem_cons.mpr ⟨first, ih others⟩
    · exact fun _ member => nomatch member

theorem HaveType.of_combined {catalog : Catalog} {hint : Option Ty} {type : Ty}
    {operands more : List Operand} {op : Operator} {node : Node} {after : LowerState}
    (uniform : HaveType catalog hint type (operands ++ more) state)
    (run : combined (number catalog hint) (.arith op type) operands state = (.ok node, after)) :
    node.ty = type ∧ HaveType catalog hint type more after := by
  rw [combined, LowerM.bind_apply] at run
  rcases lowered : operands.mapM (number catalog hint) state with ⟨_ | nodes, last⟩
  · rw [lowered] at run
    cases run
  · rw [HaveType, numberTypes_append more lowered] at uniform
    rw [lowered] at run
    cases nodes with
    | nil => cases run
    | cons first rest =>
      cases run
      refine ⟨?_, fun other member => uniform other (List.mem_append_right _ member)⟩
      have firstType : first.ty = type := uniform _ (by simp)
      clear uniform lowered
      induction rest using List.reverseRecOn with
      | nil => exact firstType
      | append_singleton rest last _ =>
        rw [List.foldl_concat]
        rfl

theorem HaveType.pair {catalog : Catalog} {hint : Option Ty} {type : Ty} {op : Operator}
    {operands : List Operand} {nested last : Operand}
    (uniform : HaveType catalog hint type (operands ++ [last]) state)
    (before : LowerM.Alike state Eq (combined (number catalog hint) (.arith op type) operands)
      (nested.number catalog hint)) :
    HaveType catalog hint type [nested, last] state := by
  rw [HaveType, numberTypes]
  split
  · rename_i node after run
    obtain ⟨same, lasts⟩ := uniform.of_combined (before.of_run run)
    exact List.forall_mem_cons.mpr ⟨same, lasts⟩
  · exact fun _ member => nomatch member

end Operand

namespace Compiler

variable {compiler : Compiler} {spanOf : Expr → Option Span}
variable {enter : Expr → Scope → Ty → LowerM Node} {scope : Scope} {state : LowerState}

/-- A tree as an operand of what stands around it. -/
def operandWith (compiler : Compiler) (spanOf : Expr → Option Span)
    (enter : Expr → Scope → Ty → LowerM Node) (scope : Scope) (expr : Expr) : Operand :=
  ⟨expr, spanOf expr, fun hint => compiler.lowerWith spanOf enter expr (scope.withHint hint)⟩

theorem operandsWith_eq_map (exprs : List Expr) :
    compiler.operandsWith spanOf enter exprs scope =
      exprs.map (compiler.operandWith spanOf enter scope) := by
  induction exprs with
  | nil => rfl
  | cons expr rest ih => rw [operandsWith, ih, List.map_cons, operandWith]

theorem operands_concat (operand : Expr → Operand) (first : Expr) (rest : List Expr)
    (last : Expr) :
    (first :: (rest ++ [last])).map operand =
      operand first :: (rest.map operand ++ [operand last]) := by
  simp

theorem lower_binary_alike (op : Operator) (exprs : List Expr) (hint : Option Ty) :
    LowerM.Alike state Eq
      ((compiler.operandWith spanOf enter scope (.binary op exprs)).lower hint)
      (compiler.lowerBinary spanOf hint op
        (exprs.map (compiler.operandWith spanOf enter scope))) := by
  have operands : compiler.operandsWith spanOf enter exprs (scope.withHint hint) =
      exprs.map (compiler.operandWith spanOf enter scope) := operandsWith_eq_map exprs
  simp only [operandWith, lowerWith]
  rw [operands]
  exact .located _ _ _

theorem lowerBinary_concat (hint : Option Ty) (op : Operator) (first : Operand)
    (rest : List Operand) (last : Operand) :
    compiler.lowerBinary spanOf hint op (first :: (rest ++ [last])) =
      if op = .power then
        PowerStrategy.lowerPower compiler.strategies compiler.catalog hint
          (PowerStrategy.chained compiler.strategies compiler.catalog spanOf
            (first :: rest).reverse) last
      else if op.isComparison then compiler.lowerComparison hint op (first :: (rest ++ [last]))
      else if op.isLogical then compiler.lowerLogic hint op (first :: (rest ++ [last]))
      else compiler.lowerArithmetic hint op (first :: (rest ++ [last])) := by
  have reversed : (first :: (rest ++ [last])).reverse = last :: (first :: rest).reverse := by simp
  obtain ⟨next, others, before⟩ : ∃ next others, (first :: rest).reverse = next :: others :=
    List.exists_cons_of_ne_nil (by simp)
  unfold lowerBinary
  rw [reversed, before]

/-! Powers: the operand that stands for all but the last one is lowered as the nested tree. -/

theorem chained_alike (regular : ∀ strategy ∈ compiler.strategies, strategy.isCustom = false)
    (first : Expr) (rest : List Expr) :
    (PowerStrategy.chained compiler.strategies compiler.catalog spanOf
        ((first :: rest).map (compiler.operandWith spanOf enter scope)).reverse).Alike
      (compiler.operandWith spanOf enter scope (.leftNested .power first rest)) := by
  induction rest using List.reverseRecOn with
  | nil => exact .refl _
  | append_singleton rest last ih =>
    intro state hint
    have reversed :
        ((first :: (rest ++ [last])).map (compiler.operandWith spanOf enter scope)).reverse =
          compiler.operandWith spanOf enter scope last ::
            ((first :: rest).map (compiler.operandWith spanOf enter scope)).reverse := by simp
    obtain ⟨next, others, before⟩ : ∃ next others,
        ((first :: rest).map (compiler.operandWith spanOf enter scope)).reverse =
          next :: others := List.exists_cons_of_ne_nil (by simp)
    rw [before] at ih
    rw [reversed, before, PowerStrategy.chained_cons, Expr.leftNested_concat]
    exact .congr (.located _ _ _) (lower_binary_alike _ _ _)
      (PowerStrategy.tryAll_alike regular ih (.refl _) _ _ _ _)

theorem lower_power_alike (regular : ∀ strategy ∈ compiler.strategies, strategy.isCustom = false)
    (first : Expr) (rest : List Expr) (last : Expr) (hint : Option Ty) :
    LowerM.Alike state Eq
      ((compiler.operandWith spanOf enter scope
        (.binary .power (first :: (rest ++ [last])))).lower hint)
      ((compiler.operandWith spanOf enter scope
        (.leftNested .power first (rest ++ [last]))).lower hint) := by
  rw [Expr.leftNested_concat]
  refine .congr (lower_binary_alike _ _ _) (lower_binary_alike _ _ _) ?_
  rw [operands_concat, lowerBinary_concat, if_pos rfl]
  exact PowerStrategy.tryAll_alike regular (chained_alike regular first rest) (.refl _) _ _ _ _

/-! The other operators, over nested and over listed operands. -/

theorem lower_logical_alike {op : Operator} (logical : op.isLogical = true) (first : Expr)
    (rest : List Expr) (last : Expr) (hint : Option Ty) :
    LowerM.Alike state Eq
      ((compiler.operandWith spanOf enter scope
        (.binary op (first :: (rest ++ [last])))).lower hint)
      (compiler.lowerLogic hint op
        ((first :: (rest ++ [last])).map (compiler.operandWith spanOf enter scope))) := by
  refine .congr (lower_binary_alike _ _ _) (.refl _) ?_
  rw [operands_concat, lowerBinary_concat,
    if_neg (by rintro rfl; cases logical), if_neg (by cases op <;> first | decide | cases logical),
    if_pos logical]
  exact .refl _

theorem lower_arithmetic_alike {op : Operator} (arithmetic : op.isArithmetic = true)
    (other : op ≠ .power) (first : Expr) (rest : List Expr) (last : Expr) (hint : Option Ty) :
    LowerM.Alike state Eq
      ((compiler.operandWith spanOf enter scope
        (.binary op (first :: (rest ++ [last])))).lower hint)
      (compiler.lowerArithmetic hint op
        ((first :: (rest ++ [last])).map (compiler.operandWith spanOf enter scope))) := by
  refine .congr (lower_binary_alike _ _ _) (.refl _) ?_
  rw [operands_concat, lowerBinary_concat, if_neg other,
    if_neg (by cases op <;> first | decide | cases arithmetic),
    if_neg (by cases op <;> first | decide | cases arithmetic)]
  exact .refl _

/-! Logical operators: a truth value in the middle is made a number and a truth value again. -/

theorem lowerLogic_eq (hint : Option Ty) (op : Operator) (operands : List Operand) :
    compiler.lowerLogic hint op operands =
      Operand.combined (Operand.truth compiler.catalog) (.logic op) operands >>= fun node =>
        liftM (compiler.catalog.materialize hint node) := by
  simp only [lowerLogic, Operand.combined, bind_assoc]
  rfl

theorem truth_alike (keeps : compiler.catalog.KeepsTruth) {op : Operator}
    {pair left right : Operand}
    (lowered : LowerM.Alike state Eq (pair.lower none)
      (compiler.lowerLogic none op [left, right])) :
    LowerM.Alike state Eq (pair.truth compiler.catalog) (do
      let first ← left.truth compiler.catalog
      let second ← right.truth compiler.catalog
      return .regained (.logic op first second)) := by
  have continued : (do
        let first ← left.truth compiler.catalog
        let second ← right.truth compiler.catalog
        return .regained (.logic op first second)) =
      compiler.lowerLogic none op [left, right] >>= fun node =>
        liftM (compiler.catalog.coerce node .bool) := by
    simp only [lowerLogic_eq, Operand.combined, List.mapM_cons, List.mapM_nil, bind_assoc,
      pure_bind, foldNodes, List.foldl_cons, List.foldl_nil, Node.materialize_logic keeps]
    simp only [LowerM.liftM_ok, pure_bind, Node.coerce_select keeps]
  rw [continued]
  refine lowered.bind ?_
  rintro after node _ rfl
  exact .located _ _ _

theorem truth_leftNested_alike (keeps : compiler.catalog.KeepsTruth) {op : Operator}
    (logical : op.isLogical = true) (first : Expr) (rest : List Expr) :
    LowerM.Alike state Node.Equivalent
      (Operand.combined (Operand.truth compiler.catalog) (.logic op)
        ((first :: rest).map (compiler.operandWith spanOf enter scope)))
      (Operand.truth compiler.catalog
        (compiler.operandWith spanOf enter scope (.leftNested op first rest))) := by
  induction rest using List.reverseRecOn generalizing state with
  | nil =>
    rw [List.map_singleton, Operand.combined_single]
    exact LowerM.Alike.mono (.refl _) fun node _ same => same ▸ .refl node
  | append_singleton rest last ih =>
    -- The last operand is the right one of the outermost pair.
    rw [operands_concat, Operand.combined_concat, Expr.leftNested_concat]
    refine .congr (.refl _) (truth_alike keeps (lower_logical_alike logical _ [] _ _)) ?_
    refine ih.bind fun after left left' lefts => ?_
    refine .andThen _ fun after right => .pure ?_
    exact (lefts.logic op (.refl right)).trans (Node.regained_equivalent op left' right)

theorem lower_logical_leftNested (keeps : compiler.catalog.KeepsTruth) {op : Operator}
    (logical : op.isLogical = true) (first : Expr) (rest : List Expr) (last : Expr)
    (hint : Option Ty) :
    LowerM.Alike state Node.Equivalent
      ((compiler.operandWith spanOf enter scope
        (.binary op (first :: (rest ++ [last])))).lower hint)
      ((compiler.operandWith spanOf enter scope
        (.leftNested op first (rest ++ [last]))).lower hint) := by
  rw [Expr.leftNested_concat]
  refine .congr (lower_logical_alike logical first rest last hint)
    (lower_logical_alike logical _ [] last hint) ?_
  rw [lowerLogic_eq, lowerLogic_eq, operands_concat]
  refine .bind (Operand.combined_alike (truth_leftNested_alike keeps logical first rest)
    (fun _ _ right lefts => lefts.logic op (.refl right)) _) fun after left right same => ?_
  exact .lift (same.materialize compiler.catalog hint)

/-! Arithmetic over operands of one type: nothing is converted and nothing is lowered again. -/

theorem lowerArithmetic_numericHint (hint : Option Ty) (op : Operator) (operands : List Operand) :
    compiler.lowerArithmetic (numericHint hint) op operands =
      compiler.lowerArithmetic hint op operands := by
  have again : numericHint (numericHint hint) = numericHint hint := by
    simp [numericHint, Option.filter_filter]
  have numeric : compiler.catalog.numeric (numericHint hint) = compiler.catalog.numeric hint := by
    funext node
    rw [Catalog.numeric, Catalog.numeric, again]
  rw [lowerArithmetic, lowerArithmetic, again, numeric]

theorem lowerArithmetic_of_haveType {hint : Option Ty} {operands : List Operand} {type : Ty}
    (number : type.isNumeric = true)
    (uniform : Operand.HaveType compiler.catalog hint type operands state) (op : Operator) :
    LowerM.Alike state Eq (compiler.lowerArithmetic hint op operands)
      (Operand.combined (Operand.number compiler.catalog hint) (.arith op type) operands) := by
  refine (LowerM.Alike.refl (operands.mapM (Operand.number compiler.catalog hint))).bind_of_run ?_
  rintro after nodes _ run rfl
  have types := Operand.numberTypes_append [] run
  rw [List.append_nil, Operand.numberTypes, List.append_nil] at types
  rw [Operand.HaveType, types] at uniform
  cases nodes with
  | nil => exact .throw _ _
  | cons first rest =>
    have replicated : (first :: rest).map Node.ty = List.replicate (rest.length + 1) type :=
      List.eq_replicate_iff.mpr ⟨by simp, uniform⟩
    rw [unify_of_ty compiler.catalog operands replicated, pure_bind]
    simp only [number, Bool.not_true, Bool.false_eq_true, if_false]
    exact .refl _

theorem number_alike {hint : Option Ty} {type : Ty} (numeric : type.isNumeric = true)
    {op : Operator} {pair left right : Operand}
    (uniform : Operand.HaveType compiler.catalog hint type [left, right] state)
    (lowered : LowerM.Alike state Eq (pair.lower (numericHint hint))
      (compiler.lowerArithmetic (numericHint hint) op [left, right])) :
    LowerM.Alike state Eq (pair.number compiler.catalog hint)
      (Operand.combined (Operand.number compiler.catalog hint) (.arith op type) [left, right]) := by
  rw [lowerArithmetic_numericHint] at lowered
  have kept : ∀ first second, compiler.catalog.numeric hint (.arith op type first second) =
      .ok (.arith op type first second) := fun _ _ => if_pos numeric
  -- A node of arithmetic is a number already.
  have continued :
      Operand.combined (Operand.number compiler.catalog hint) (.arith op type) [left, right] =
        Operand.combined (Operand.number compiler.catalog hint) (.arith op type) [left, right] >>=
          fun node => liftM (compiler.catalog.numeric hint node) := by
    simp only [Operand.combined_pair, bind_assoc, pure_bind, kept, LowerM.liftM_ok]
  rw [continued]
  refine .bind (.congr lowered (.refl _) (lowerArithmetic_of_haveType numeric uniform op)) ?_
  rintro after node _ rfl
  exact .located _ _ _

theorem number_leftNested_alike {hint : Option Ty} {type : Ty} (numeric : type.isNumeric = true)
    {op : Operator} (arithmetic : op.isArithmetic = true) (other : op ≠ .power) (first : Expr)
    (rest : List Expr)
    (uniform : Operand.HaveType compiler.catalog hint type
      ((first :: rest).map (compiler.operandWith spanOf enter scope)) state) :
    LowerM.Alike state Eq
      (Operand.combined (Operand.number compiler.catalog hint) (.arith op type)
        ((first :: rest).map (compiler.operandWith spanOf enter scope)))
      (Operand.number compiler.catalog hint
        (compiler.operandWith spanOf enter scope (.leftNested op first rest))) := by
  induction rest using List.reverseRecOn with
  | nil =>
    rw [List.map_singleton, Operand.combined_single]
    exact .refl _
  | append_singleton rest last ih =>
    rw [operands_concat] at uniform ⊢
    -- What stands for the operands before has their type, and the last one is lowered in the
    -- state that they leave, so that the outermost pair is of one type as well.
    have before := ih (Operand.HaveType.before uniform)
    rw [Expr.leftNested_concat]
    exact .congr (.refl _)
      (number_alike numeric (Operand.HaveType.pair uniform before)
        (lower_arithmetic_alike arithmetic other _ [] _ _))
      (Operand.combined_alike before (fun _ _ _ same => same ▸ rfl) _)

theorem lower_arithmetic_leftNested {type : Ty} (numeric : type.isNumeric = true)
    {op : Operator} (arithmetic : op.isArithmetic = true) (other : op ≠ .power) (first : Expr)
    (rest : List Expr) (last : Expr) (hint : Option Ty)
    (uniform : Operand.HaveType compiler.catalog hint type
      ((first :: (rest ++ [last])).map (compiler.operandWith spanOf enter scope)) state) :
    LowerM.Alike state Eq
      ((compiler.operandWith spanOf enter scope
        (.binary op (first :: (rest ++ [last])))).lower hint)
      ((compiler.operandWith spanOf enter scope
        (.leftNested op first (rest ++ [last]))).lower hint) := by
  have listed := lowerArithmetic_of_haveType numeric uniform op
  rw [operands_concat] at uniform listed
  have before := number_leftNested_alike numeric arithmetic other first rest
    (Operand.HaveType.before uniform)
  have paired := lowerArithmetic_of_haveType numeric (Operand.HaveType.pair uniform before) op
  rw [Expr.leftNested_concat]
  refine .congr (lower_arithmetic_alike arithmetic other first rest last hint)
    (lower_arithmetic_alike arithmetic other _ [] last hint) ?_
  rw [operands_concat]
  exact .congr listed paired
    (Operand.combined_alike before (fun _ _ _ same => same ▸ rfl) _)

end Compiler

end Formulary
