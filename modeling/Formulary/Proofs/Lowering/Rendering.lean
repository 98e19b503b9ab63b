import Formulary.Lowering.Compile
import Formulary.Proofs.Decimal.Order
import Formulary.Proofs.Lowering.Effect

namespace Formulary

/-! Arithmetic at one numeric type. Every part is lowered under the hint of the type and gives a
    node of it, so nothing is converted and nothing is lowered twice. What a node of arithmetic
    stands for is left open here: operators have to keep it, and lowering then keeps it, too. -/

theorem coerce_of_ty {catalog : Catalog} {node : Node} {type : Ty} (same : node.ty = type) :
    catalog.coerce node type = .ok node := if_pos same

theorem unify_of_ty (catalog : Catalog) (operands : List Operand) {nodes : List Node} {type : Ty}
    {count : Nat} (types : nodes.map Node.ty = List.replicate (count + 1) type) :
    Operand.unify catalog operands nodes = pure (nodes, type) := by
  have all : ∀ node ∈ nodes, node.ty = type := fun node member =>
    List.eq_of_mem_replicate (types ▸ List.mem_map_of_mem member)
  cases nodes with
  | nil => cases types
  | cons first rest =>
    have firstType := all first (by simp)
    unfold Operand.unify
    dsimp only
    rw [firstType, if_pos (by simpa using all)]

theorem integerLiteral?_eq_some {expr : Expr} {n : Int}
    (literal : PowerStrategy.integerLiteral? expr = some n) :
    ∃ value, expr = .number value ∧ Decimal.Same (.ofInt n) value := by
  unfold PowerStrategy.integerLiteral? at literal
  obtain ⟨value, number, rest⟩ := Option.bind_eq_some_iff.mp literal
  obtain ⟨_, whole, rest⟩ := Option.bind_eq_some_iff.mp rest
  obtain ⟨_, _, same⟩ := Option.bind_eq_some_iff.mp rest
  cases same
  refine ⟨value, ?_, ?_⟩
  · cases expr <;> cases number
    rfl
  · have integral : value.isIntegral = true := by
      by_contra fraction
      simp [guard, fraction] at whole
    rw [Decimal.Same, Decimal.toRat_ofInt, Decimal.toInt_eq,
      Decimal.integerPart_of_isIntegral integral]

/-- What nodes of one numeric type stand for, in the worlds of lowering. -/
structure Rendering (W : Type) [Preorder W] where
  type : Ty
  /-- The trees that occur as operands. -/
  Admits : Expr → Prop
  Renders : W → Node → Expr → Prop
  numeric : type.isNumeric = true
  ty : ∀ {world node expr}, Renders world node expr → node.ty = type
  later : ∀ {world last node expr}, world ≤ last → Renders world node expr →
    Renders last node expr
  negate : ∀ {world node expr}, Renders world node expr →
    Renders world (.negate node.ty node) (.unary .negate expr)
  factorial : ∀ {world node expr}, Renders world node expr →
    Renders world (.factorial node.ty node) (.unary .factorial expr)
  arith : ∀ {world node expr nodes exprs} (op : Operator), Renders world node expr →
    List.Forall₂ (Renders world) nodes exprs →
      Renders world (nodes.foldl (.arith op type) node) (.binary op (expr :: exprs))
  power : ∀ {world base exponent bases expr}, bases ≠ [] →
    Renders world base (.binary .power bases) → Renders world exponent expr →
      Renders world (.arith .power type base exponent) (.binary .power (bases ++ [expr]))
  /-- An integer literal as exponent may be written in another way. -/
  literalPower : ∀ {n value}, Admits (.number value) → Decimal.Same (.ofInt n) value →
    ∃ constant, Value.ofDecimal (.ofInt n) type = .ok constant ∧
      ∀ {world base bases}, bases ≠ [] → Renders world base (.binary .power bases) →
        Renders world (.arith .power type base (.constant constant))
          (.binary .power (bases ++ [.number value]))

namespace Rendering

variable {W : Type} [Preorder W] {rendering : Rendering W} {describes : W → LowerState → Prop}
variable {failure : Prop} {world : W} {node : Node} {nodes : List Node}
variable {expr : Expr} {exprs : List Expr}

theorem single (renders : rendering.Renders world node expr) (op : Operator) :
    rendering.Renders world node (.binary op [expr]) :=
  rendering.arith op renders .nil

theorem map_ty (rendering : Rendering W)
    (all : List.Forall₂ (rendering.Renders world) nodes exprs) :
    nodes.map Node.ty = List.replicate exprs.length rendering.type := by
  induction all with
  | nil => rfl
  | cons first _ ih =>
    rw [List.map_cons, rendering.ty first, ih, List.length_cons, List.replicate_succ]

theorem numeric_eq (renders : rendering.Renders world node expr) (catalog : Catalog)
    (hint : Option Ty) : catalog.numeric hint node = .ok node :=
  if_pos (by rw [rendering.ty renders, rendering.numeric])

theorem numericHint_type (rendering : Rendering W) :
    numericHint (some rendering.type) = some rendering.type := by
  simp [numericHint, Option.filter, rendering.numeric]

/-- The action gives a node for the tree. -/
abbrev Lowers (rendering : Rendering W) (describes : W → LowerState → Prop) (failure : Prop)
    (world : W) (action : LowerM Node) (expr : Expr) : Prop :=
  LowerM.Keeps describes world action (fun last node => rendering.Renders last node expr) failure

/-- Lowering the operand from now on gives a node for the tree. -/
def Gives (rendering : Rendering W) (describes : W → LowerState → Prop) (failure : Prop)
    (world : W) (operand : Operand) (expr : Expr) : Prop :=
  ∀ last, world ≤ last →
    rendering.Lowers describes failure last (operand.lower (some rendering.type)) expr

/-- The operand stands for a tree that is admitted. -/
structure Stands (rendering : Rendering W) (describes : W → LowerState → Prop) (failure : Prop)
    (world : W) (operand : Operand) (expr : Expr) : Prop where
  written : operand.expr = expr
  admitted : rendering.Admits expr
  gives : rendering.Gives describes failure world operand expr

theorem Gives.later {last : W} {operand : Operand}
    (gives : rendering.Gives describes failure world operand expr) (order : world ≤ last) :
    rendering.Gives describes failure last operand expr :=
  fun final finalOrder => gives final (le_trans order finalOrder)

theorem Stands.later {last : W} {operand : Operand}
    (stands : rendering.Stands describes failure world operand expr) (order : world ≤ last) :
    rendering.Stands describes failure last operand expr :=
  ⟨stands.written, stands.admitted, stands.gives.later order⟩

/-! Operands: nothing has to be converted or lowered again. -/

variable (rendering)

section

variable {operand : Operand} {operands : List Operand}

theorem mapM_lowers {lower : Operand → LowerM Node}
    (one : ∀ {last operand expr}, rendering.Gives describes failure last operand expr →
      rendering.Lowers describes failure last (lower operand) expr)
    (gives : List.Forall₂ (rendering.Gives describes failure world) operands exprs) :
    ∀ last, world ≤ last → LowerM.Keeps describes last (operands.mapM lower)
      (fun final nodes => List.Forall₂ (rendering.Renders final) nodes exprs) failure := by
  induction gives with
  | nil => exact fun _ _ => .pure .nil
  | cons first _ ih =>
    intro last order
    rw [List.mapM_cons]
    refine .bind (one (first.later order)) fun middle middleOrder node renders => ?_
    refine .bind (ih middle (le_trans order middleOrder)) fun final finalOrder nodes all => ?_
    exact .pure (.cons (rendering.later finalOrder renders) all)

theorem lowerAll_lowers
    (gives : List.Forall₂ (rendering.Gives describes failure world) operands exprs) :
    LowerM.Keeps describes world (Operand.lowerAll (some rendering.type) operands)
      (fun last nodes => List.Forall₂ (rendering.Renders last) nodes exprs) failure :=
  rendering.mapM_lowers (fun one => one _ (le_refl _)) gives world (le_refl _)

theorem numeric_lowers (catalog : Catalog)
    (gives : rendering.Gives describes failure world operand expr) :
    rendering.Lowers describes failure world (do
      catalog.numeric (some rendering.type)
        (← operand.lower (numericHint (some rendering.type)))) expr := by
  rw [rendering.numericHint_type]
  refine .bind (gives world (le_refl _)) fun last _ node renders => ?_
  rw [numeric_eq renders]
  exact .pure renders

theorem lowerAs_lowers (catalog : Catalog)
    (gives : rendering.Gives describes failure world operand expr) :
    rendering.Lowers describes failure world (operand.lowerAs catalog rendering.type) expr := by
  refine .bind (gives world (le_refl _)) fun last _ node renders => ?_
  rw [coerce_of_ty (rendering.ty renders)]
  exact .locating (.pure renders)

theorem lowerUnary_lowers (compiler : Compiler) (op : UnaryOperator) (arithmetic : op ≠ .not)
    (gives : rendering.Gives describes failure world operand expr) :
    rendering.Lowers describes failure world
      (compiler.lowerUnary (some rendering.type) op operand) (.unary op expr) := by
  have number := rendering.numeric_lowers compiler.catalog gives
  cases op with
  | negate => exact .bind number fun _ _ _ renders => .pure (rendering.negate renders)
  | factorial => exact .bind number fun _ _ _ renders => .pure (rendering.factorial renders)
  | not => exact absurd rfl arithmetic

theorem lowerArithmetic_lowers (compiler : Compiler) (op : Operator) (nonempty : exprs ≠ [])
    (gives : List.Forall₂ (rendering.Gives describes failure world) operands exprs) :
    rendering.Lowers describes failure world
      (compiler.lowerArithmetic (some rendering.type) op operands) (.binary op exprs) := by
  have number : ∀ {last : W} {operand : Operand} {expr : Expr},
      rendering.Gives describes failure last operand expr →
        rendering.Lowers describes failure last (do
          let node ← operand.lower (numericHint (some rendering.type))
          operand.locating (compiler.catalog.numeric (some rendering.type) node)) expr := by
    intro last operand expr gives
    rw [rendering.numericHint_type]
    refine .bind (gives last (le_refl _)) fun final _ node renders => ?_
    rw [numeric_eq renders]
    exact .locating (.pure renders)
  obtain ⟨head, tail, rfl⟩ := List.exists_cons_of_ne_nil nonempty
  refine .bind (rendering.mapM_lowers number gives world (le_refl _)) fun last _ nodes all => ?_
  rw [unify_of_ty compiler.catalog operands (rendering.map_ty all)]
  obtain ⟨first, rest, firstRenders, restRenders, rfl⟩ := List.forall₂_cons_right_iff.mp all
  simp only [pure_bind, rendering.numeric, Bool.not_true, Bool.false_eq_true, if_false]
  exact .pure (rendering.arith op firstRenders restRenders)

end

/-! Powers: an integer literal as exponent stays a constant, where the base allows it, and any
    other exponent has the type of the base. -/

section

variable {base exponent : Operand} {bases : List Expr}

/-- What a strategy finds is the power; only the first one may find nothing. -/
theorem strategy_lowers {strategy : PowerStrategy} (listed : strategy ∈ PowerStrategy.defaults)
    (catalog : Catalog) (nonempty : bases ≠ [])
    (baseGives : rendering.Gives describes failure world base (.binary .power bases))
    (stands : rendering.Stands describes failure world exponent expr) :
    LowerM.Keeps describes world (strategy.lower catalog (some rendering.type) base exponent)
      (fun last result => match result with
        | some node => rendering.Renders last node (.binary .power (bases ++ [expr]))
        | none => strategy = .integerExponent) failure := by
  have pair : List.Forall₂ (rendering.Gives describes failure world) [base, exponent]
      [.binary .power bases, expr] :=
    .cons baseGives (.cons stands.gives .nil)
  have hint := rendering.numericHint_type
  simp only [PowerStrategy.defaults, List.mem_cons, List.not_mem_nil, or_false] at listed
  rcases listed with rfl | rfl | rfl
  · unfold PowerStrategy.lower PowerStrategy.lowerIntegerExponent
    dsimp only
    rw [stands.written, hint]
    split
    · exact .pure rfl
    · rename_i n literal
      obtain ⟨value, rfl, same⟩ := integerLiteral?_eq_some literal
      obtain ⟨constant, converted, power⟩ := rendering.literalPower stands.admitted same
      refine .bind (baseGives world (le_refl _)) fun last _ node renders => ?_
      rw [rendering.ty renders]
      split
      · exact .pure rfl
      · rw [converted]
        exact .pure (power nonempty renders)
  · unfold PowerStrategy.lower PowerStrategy.lowerSameType
    rw [hint]
    refine .bind (baseGives world (le_refl _)) fun middle middleOrder node renders => ?_
    refine .bind ((stands.gives.later middleOrder) middle (le_refl _))
      fun last order operand exponentRenders => ?_
    rw [rendering.ty renders, rendering.ty exponentRenders, rendering.numeric]
    simp only [decide_true, Bool.and_self, if_true]
    exact .pure (rendering.power nonempty (rendering.later order renders) exponentRenders)
  · unfold PowerStrategy.lower PowerStrategy.lowerWidestType
    rw [hint]
    refine .bind (rendering.lowerAll_lowers pair) fun last _ nodes all => ?_
    rw [unify_of_ty catalog _ (rendering.map_ty all)]
    obtain ⟨node, rest, renders, restRenders, rfl⟩ := List.forall₂_cons_right_iff.mp all
    obtain ⟨operand, others, exponentRenders, nothing, rfl⟩ :=
      List.forall₂_cons_right_iff.mp restRenders
    cases nothing
    simp only [pure_bind, rendering.numeric, if_true]
    exact .pure (rendering.power nonempty renders exponentRenders)

/-- Strategies are tried until one finds the power. One of them does, unless the operands cannot
    be lowered. -/
theorem tryAll_lowers {strategies : List PowerStrategy} (catalog : Catalog)
    (listed : strategies ⊆ PowerStrategy.defaults)
    (ends : (∀ strategy ∈ strategies, strategy = .integerExponent) → failure)
    (nonempty : bases ≠ [])
    (baseGives : rendering.Gives describes failure world base (.binary .power bases))
    (stands : rendering.Stands describes failure world exponent expr) (error : CompileError) :
    rendering.Lowers describes failure world
      (PowerStrategy.tryAll catalog (some rendering.type) base exponent error strategies)
      (.binary .power (bases ++ [expr])) := by
  induction strategies generalizing world error with
  | nil => exact .throw (ends fun _ member => nomatch member)
  | cons strategy rest ih =>
    have restListed : rest ⊆ PowerStrategy.defaults := fun _ member =>
      listed (List.mem_cons_of_mem _ member)
    have first := rendering.strategy_lowers (listed List.mem_cons_self) catalog nonempty
      baseGives stands
    refine .bind first.attempt fun last order result holds => ?_
    have again : ∀ error, ((∀ other ∈ rest, other = .integerExponent) → failure) → _ :=
      fun error ends => ih restListed ends (baseGives.later order) (stands.later order) error
    match result, holds with
    | .ok (some node), renders => exact .pure renders
    | .ok none, isFirst => exact again error fun all => ends (by simpa [isFirst] using all)
    | .error cause, failed => exact again cause fun _ => failed

theorem lowerPower_lowers (catalog : Catalog) (nonempty : bases ≠ [])
    (baseGives : rendering.Gives describes failure world base (.binary .power bases))
    (stands : rendering.Stands describes failure world exponent expr) :
    rendering.Lowers describes failure world
      (PowerStrategy.lowerPower PowerStrategy.defaults catalog (some rendering.type) base exponent)
      (.binary .power (bases ++ [expr])) := by
  refine rendering.tryAll_lowers catalog (List.Subset.refl _) (fun all => ?_) nonempty baseGives
    stands _
  cases all .sameType (by simp [PowerStrategy.defaults])

/-- Operands that are given from the last to the first are a power from the first to the last. -/
theorem chained_gives (catalog : Catalog) (spanOf : Expr → Option Span)
    {operands : List Operand} {exprs : List Expr} (nonempty : exprs ≠ [])
    (stand : List.Forall₂ (rendering.Stands describes failure world) operands exprs) :
    rendering.Gives describes failure world
      (PowerStrategy.chained PowerStrategy.defaults catalog spanOf operands)
      (.binary .power exprs.reverse) := by
  induction stand with
  | nil => exact absurd rfl nonempty
  | @cons operand expr operands exprs first rest ih =>
    cases rest with
    | nil =>
      intro last order
      exact .weaken (first.gives last order) (fun _ _ _ renders => single renders .power) id
    | cons second more =>
      have baseGives := ih (List.cons_ne_nil _ _)
      intro last order
      rw [List.reverse_cons]
      exact .locating (rendering.lowerPower_lowers catalog (by simp) (baseGives.later order)
        (first.later order))

end

theorem lowerBinary_lowers {compiler : Compiler} {operands : List Operand}
    (strategies : compiler.strategies = PowerStrategy.defaults) (spanOf : Expr → Option Span)
    {op : Operator} (nonempty : exprs ≠ []) (arithmetic : op.isArithmetic ∨ exprs.length = 1)
    (stand : List.Forall₂ (rendering.Stands describes failure world) operands exprs) :
    rendering.Lowers describes failure world
      (compiler.lowerBinary spanOf (some rendering.type) op operands) (.binary op exprs) := by
  have reversed := List.forall₂_reverse_iff.mpr stand
  unfold Compiler.lowerBinary
  rw [strategies]
  split
  · rename_i none_
    rw [none_] at reversed
    exact absurd (List.reverse_eq_nil_iff.mp (List.forall₂_nil_left_iff.mp reversed)) nonempty
  · rename_i operand one
    rw [one] at reversed
    obtain ⟨expr, rest, first, nothing, same⟩ := List.forall₂_cons_left_iff.mp reversed
    cases nothing
    rw [List.reverse_eq_iff.mp same]
    exact .weaken (first.gives world (le_refl _)) (fun _ _ _ renders => single renders op) id
  · rename_i last rest several equal
    rw [equal] at reversed
    obtain ⟨expr, initial, first, restStand, same⟩ := List.forall₂_cons_left_iff.mp reversed
    have order : exprs = initial.reverse ++ [expr] := by
      rw [← List.reverse_cons, ← same, List.reverse_reverse]
    have more : initial ≠ [] := by
      rintro rfl
      exact several (List.forall₂_nil_right_iff.mp restStand ▸ rfl)
    have chain : op.isArithmetic = true := by
      refine arithmetic.resolve_right fun one => more ?_
      rw [order] at one
      simpa using one
    split
    · rename_i power
      subst power
      rw [order]
      exact rendering.lowerPower_lowers compiler.catalog (by simpa using more)
        (rendering.chained_gives compiler.catalog spanOf more restStand) first
    · have plain := List.Forall₂.imp (fun _ _ one => one.gives) stand
      have sum := rendering.lowerArithmetic_lowers compiler op nonempty plain
      cases op <;> first | exact sum | cases chain

end Rendering

end Formulary
