import Formulary.Proofs.Lowering.InPlay

namespace Formulary

variable {compiler : Compiler} {state : LowerState} {hint : Option Ty}
variable {lefts rights : List Operand}

/-! Operators, powers and builtin functions are lowered alike over operands that agree, to nodes
    of types in play. -/

theorem Operand.lowerAll_settles (agree : Operand.AllAgree compiler state lefts rights)
    (hints : compiler.Hints hint) :
    LowerM.Settles compiler.typesInPlay state (Operand.lowerAll hint lefts)
      (Operand.lowerAll hint rights) fun nodes => nodes.length = lefts.length ∧
        ∀ node ∈ nodes, compiler.InPlay hint node :=
  .mapM _ (agree.imp fun _ _ agree later order => agree.lower later order hint hints)

theorem foldNodes_settles {types : List Ty} {combine : Node → Node → Node} {nodes : List Node}
    {result : Node → Prop} (several : 2 ≤ nodes.length)
    (combined : ∀ left right, result (combine left right)) :
    LowerM.Settles types state (foldNodes combine nodes) (foldNodes combine nodes) result := by
  have folded : ∀ (rest : List Node) (node : Node), result node →
      result (rest.foldl combine node) := by
    intro rest
    induction rest with
    | nil => exact fun _ holds => holds
    | cons third rest ih => exact fun node _ => ih _ (combined node third)
  match nodes, several with
  | first :: second :: rest, _ => exact .pure (folded rest _ (combined first second))

namespace Compiler

theorem lowerUnary_settles {left right : Operand} (agree : Operand.Agree compiler state left right)
    (hint : Option Ty) (op : UnaryOperator) :
    LowerM.Settles compiler.typesInPlay state (compiler.lowerUnary hint op left)
      (compiler.lowerUnary hint op right) (compiler.InPlay hint) := by
  have number : LowerM.Settles compiler.typesInPlay state
      (do compiler.catalog.numeric hint (← left.lower (numericHint hint)))
      (do compiler.catalog.numeric hint (← right.lower (numericHint hint)))
      fun node => node.ty ∈ compiler.typesInPlay :=
    .bind (agree.lower state (.refl state) _ (.numericHint hint)) fun _ _ _ inPlay =>
      numeric_settles inPlay
  cases op with
  | negate =>
    refine .bind number fun _ _ node known => ?_
    exact .pure (Compound.inPlay ⟨known, nofun⟩)
  | factorial =>
    refine .bind number fun _ _ node known => ?_
    exact .pure (Compound.inPlay ⟨known, nofun⟩)
  | not =>
    refine .bind (agree.lower state (.refl state) none .none) fun _ _ node _ => ?_
    refine .bind (Catalog.coerce_settles node .bool) fun _ _ truth _ => ?_
    have compound : compiler.Compound (.not truth) := ⟨inPlay_bool, nofun⟩
    exact materialize_settles compound hint

theorem lowerArithmetic_settles (agree : Operand.AllAgree compiler state lefts rights)
    (several : 2 ≤ lefts.length) (hint : Option Ty) (op : Operator) :
    LowerM.Settles compiler.typesInPlay state (compiler.lowerArithmetic hint op lefts)
      (compiler.lowerArithmetic hint op rights) (compiler.InPlay hint) := by
  refine .bind (.mapM (fun node : Node => node.ty ∈ compiler.typesInPlay)
    (agree.imp fun left right agree later order => ?_)) fun later order nodes known => ?_
  · refine .bind (agree.lower later order _ (.numericHint hint)) fun _ _ node inPlay => ?_
    rw [Operand.locating, Operand.locating, agree.expr, agree.span]
    exact .locating _ _ (numeric_settles inPlay)
  · refine .bind (Operand.unify_settles (agree.later order) known.1 known.2)
      fun _ _ result unified => ?_
    obtain ⟨nodes, type⟩ := result
    dsimp only at unified ⊢
    split
    · exact .throw_bind (by simp [CompileError.cause])
    · exact foldNodes_settles (by omega) fun _ _ => Compound.inPlay ⟨unified.2, by simp⟩

theorem lowerComparison_settles (agree : Operand.AllAgree compiler state lefts rights)
    (hint : Option Ty) (op : Operator) :
    LowerM.Settles compiler.typesInPlay state (compiler.lowerComparison hint op lefts)
      (compiler.lowerComparison hint op rights) (compiler.InPlay hint) := by
  rw [lowerComparison, lowerComparison, ← agree.length_eq]
  dsimp only
  split
  · exact .throw_bind nofun
  · rename_i two
    refine .bind (Operand.lowerAll_settles agree .none) fun later order nodes inPlay => ?_
    refine .bind (Operand.unify_settles (agree.later order) inPlay.1
      fun node member => (inPlay.2 node member).known) fun _ _ result unified => ?_
    refine .bind (foldNodes_settles (by omega) fun left right =>
      (⟨inPlay_bool, nofun⟩ : compiler.Compound (.compare op left right))) fun _ _ node compound => ?_
    exact materialize_settles compound hint

theorem lowerLogic_settles (agree : Operand.AllAgree compiler state lefts rights)
    (several : 2 ≤ lefts.length) (hint : Option Ty) (op : Operator) :
    LowerM.Settles compiler.typesInPlay state (compiler.lowerLogic hint op lefts)
      (compiler.lowerLogic hint op rights) (compiler.InPlay hint) := by
  refine .bind (.mapM (fun _ => True) (agree.imp fun left right agree later order => ?_))
    fun later order nodes truths => ?_
  · refine .bind (agree.lower later order none .none) fun _ _ node _ => ?_
    rw [Operand.locating, Operand.locating, agree.expr, agree.span]
    exact .locating _ _ (Catalog.coerce_settles node .bool)
  · refine .bind (foldNodes_settles (by omega) fun left right =>
      (⟨inPlay_bool, by simp⟩ : compiler.Compound (.logic op left right))) fun _ _ node compound => ?_
    exact materialize_settles compound hint

end Compiler

/-- A result that may be missing, and is a compound node where it is not. -/
abbrev Compiler.CompoundIfAny (compiler : Compiler) (result : Option Node) : Prop :=
  ∀ node ∈ result, compiler.Compound node

theorem Compiler.CompoundIfAny.some {node : Node} (compound : compiler.Compound node) :
    compiler.CompoundIfAny (some node) :=
  fun _ member => Option.mem_some_iff.mp member ▸ compound

namespace PowerStrategy

variable {base base' exponent exponent' : Operand}

theorem lowerIntegerExponent_settles (bases : Operand.Agree compiler state base base')
    (exponents : Operand.Agree compiler state exponent exponent') (hint : Option Ty) :
    LowerM.Settles compiler.typesInPlay state (lowerIntegerExponent hint base exponent)
      (lowerIntegerExponent hint base' exponent') compiler.CompoundIfAny := by
  rw [lowerIntegerExponent, lowerIntegerExponent, exponents.expr]
  split
  · exact .pure nofun
  · refine .bind (bases.lower state (.refl state) _ (.numericHint hint)) fun _ _ node inPlay => ?_
    dsimp only
    split
    · exact .pure nofun
    · split
      · exact .pure (Compiler.CompoundIfAny.some ⟨inPlay.known, nofun⟩)
      · exact .throw nofun

theorem lowerSameType_settles (bases : Operand.Agree compiler state base base')
    (exponents : Operand.Agree compiler state exponent exponent') (hint : Option Ty) :
    LowerM.Settles compiler.typesInPlay state (lowerSameType hint base exponent)
      (lowerSameType hint base' exponent') compiler.CompoundIfAny := by
  refine .bind (bases.lower state (.refl state) _ (.numericHint hint))
    fun later order left inPlay => ?_
  refine .bind (exponents.lower later order _ (.numericHint hint)) fun _ _ right _ => ?_
  split
  · exact .pure (Compiler.CompoundIfAny.some ⟨inPlay.known, nofun⟩)
  · exact .pure nofun

theorem lowerWidestType_settles (bases : Operand.Agree compiler state base base')
    (exponents : Operand.Agree compiler state exponent exponent') (hint : Option Ty) :
    LowerM.Settles compiler.typesInPlay state
      (lowerWidestType compiler.catalog hint base exponent)
      (lowerWidestType compiler.catalog hint base' exponent') compiler.CompoundIfAny := by
  have agree : Operand.AllAgree compiler state [base, exponent] [base', exponent'] :=
    .cons bases (.cons exponents .nil)
  refine .bind (Operand.lowerAll_settles agree (.numericHint hint))
    fun later order nodes inPlay => ?_
  refine .bind (Operand.unify_settles (agree.later order) inPlay.1
    fun node member => (inPlay.2 node member).known) fun _ _ result unified => ?_
  obtain ⟨nodes, type⟩ := result
  dsimp only
  split
  · split
    · exact .pure (Compiler.CompoundIfAny.some ⟨unified.2, nofun⟩)
    · exact .pure nofun
  · exact .pure nofun

theorem lower_settles {strategy : PowerStrategy} (regular : strategy.isCustom = false)
    (bases : Operand.Agree compiler state base base')
    (exponents : Operand.Agree compiler state exponent exponent') (hint : Option Ty) :
    LowerM.Settles compiler.typesInPlay state
      (strategy.lower compiler.catalog hint base exponent)
      (strategy.lower compiler.catalog hint base' exponent') compiler.CompoundIfAny := by
  cases strategy with
  | integerExponent => exact lowerIntegerExponent_settles bases exponents hint
  | sameType => exact lowerSameType_settles bases exponents hint
  | widestType => exact lowerWidestType_settles bases exponents hint
  | custom name lower => cases regular

theorem tryAll_settles {strategies : List PowerStrategy}
    (regular : ∀ strategy ∈ strategies, strategy.isCustom = false)
    (bases : Operand.Agree compiler state base base')
    (exponents : Operand.Agree compiler state exponent exponent') (hint : Option Ty)
    {failure : CompileError} (finished : failure.cause ≠ .unfinished) :
    LowerM.Settles compiler.typesInPlay state
      (tryAll compiler.catalog hint base exponent failure strategies)
      (tryAll compiler.catalog hint base' exponent' failure strategies)
      (compiler.InPlay hint) := by
  induction strategies generalizing state failure with
  | nil => exact .throw finished
  | cons strategy rest ih =>
    have others : ∀ other ∈ rest, other.isCustom = false :=
      fun other member => regular other (by simp [member])
    refine .bind (.attempt (lower_settles (regular strategy (by simp)) bases exponents hint))
      fun later order outcome settled => ?_
    match outcome, settled with
    | .ok (some node), compound => exact .pure (compound node rfl).inPlay
    | .ok none, _ => exact ih others (bases.later order) (exponents.later order) finished
    | .error error, other => exact ih others (bases.later order) (exponents.later order) other

theorem lowerPower_settles {strategies : List PowerStrategy}
    (regular : ∀ strategy ∈ strategies, strategy.isCustom = false)
    (bases : Operand.Agree compiler state base base')
    (exponents : Operand.Agree compiler state exponent exponent') (hint : Option Ty) :
    LowerM.Settles compiler.typesInPlay state
      (lowerPower strategies compiler.catalog hint base exponent)
      (lowerPower strategies compiler.catalog hint base' exponent') (compiler.InPlay hint) := by
  rw [lowerPower, lowerPower, bases.expr, exponents.expr]
  exact tryAll_settles regular bases exponents hint nofun

theorem chained_cons (strategies : List PowerStrategy) (catalog : Catalog)
    (spanOf : Expr → Option Span) (exponent next : Operand) (rest : List Operand) :
    chained strategies catalog spanOf (exponent :: next :: rest) =
      let expr := Expr.nary .power ((exponent :: next :: rest).reverse.map (·.expr))
      ⟨expr, spanOf expr, fun hint => LowerM.locating expr (spanOf expr)
        (lowerPower strategies catalog hint (chained strategies catalog spanOf (next :: rest))
          exponent)⟩ := rfl

theorem chained_agree {strategies : List PowerStrategy}
    (regular : ∀ strategy ∈ strategies, strategy.isCustom = false)
    (spanOf : Expr → Option Span) (agree : Operand.AllAgree compiler state lefts rights)
    (nonempty : lefts ≠ []) :
    Operand.Agree compiler state (chained strategies compiler.catalog spanOf lefts)
      (chained strategies compiler.catalog spanOf rights) := by
  induction agree with
  | nil => exact absurd rfl nonempty
  | cons first rest ih =>
    have exprs := Operand.AllAgree.map_expr (.cons first rest)
    cases rest with
    | nil => exact first
    | cons second others =>
      have base := ih (List.cons_ne_nil _ _)
      rw [chained_cons, chained_cons, List.map_reverse, List.map_reverse, exprs]
      exact ⟨rfl, rfl, fun later order hint _ => .locating _ _
        (lowerPower_settles regular (base.later order) (first.later order) hint)⟩

end PowerStrategy

theorem Compiler.lowerBinary_settles (regular : compiler.Regular)
    (agree : Operand.AllAgree compiler state lefts rights) (spanOf : Expr → Option Span)
    (hints : compiler.Hints hint) (op : Operator) :
    LowerM.Settles compiler.typesInPlay state (compiler.lowerBinary spanOf hint op lefts)
      (compiler.lowerBinary spanOf hint op rights) (compiler.InPlay hint) := by
  have reversed : Operand.AllAgree compiler state lefts.reverse rights.reverse :=
    List.rel_reverse agree
  have size : lefts.length = lefts.reverse.length := List.length_reverse.symm
  rw [lowerBinary, lowerBinary]
  generalize lefts.reverse = items at reversed size
  generalize rights.reverse = others at reversed
  cases reversed with
  | nil => exact .throw nofun
  | cons last rest =>
    cases rest with
    | nil => exact last.lower state (.refl state) hint hints
    | cons second others =>
      have several : 2 ≤ lefts.length := by
        rw [size]
        simp
      dsimp only
      split
      · exact PowerStrategy.lowerPower_settles regular.strategies
          (PowerStrategy.chained_agree regular.strategies spanOf (.cons second others)
            (List.cons_ne_nil _ _)) last hint
      · split
        · exact lowerComparison_settles agree hint op
        · split
          · exact lowerLogic_settles agree several hint op
          · exact lowerArithmetic_settles agree several hint op

namespace Builtin

theorem lowerConditional_settles (agree : Operand.AllAgree compiler state lefts rights)
    (hints : compiler.Hints hint) :
    LowerM.Settles compiler.typesInPlay state (lowerConditional compiler.catalog hint lefts)
      (lowerConditional compiler.catalog hint rights) compiler.CompoundIfAny := by
  match agree with
  | .nil | .cons _ .nil | .cons _ (.cons _ .nil) | .cons _ (.cons _ (.cons _ (.cons _ _))) =>
    exact .pure nofun
  | .cons condition (.cons positive (.cons negative .nil)) =>
    have branches := fun later (order : state.Extends later) =>
      Operand.AllAgree.later (.cons positive (.cons negative .nil)) order
    refine .bind (Operand.lowerAs_settles condition Compiler.inPlay_bool)
      fun first start truth _ => ?_
    refine .bind (Operand.lowerAll_settles (branches first start) hints)
      fun later order nodes inPlay => ?_
    refine .bind (Operand.unify_settles (branches later (start.trans order)) inPlay.1
      fun node member => (inPlay.2 node member).known) fun _ _ result unified => ?_
    obtain ⟨nodes, type⟩ := result
    dsimp only
    split
    · exact .pure (Compiler.CompoundIfAny.some ⟨unified.2, nofun⟩)
    · exact .pure nofun

theorem isNumeric_functionType (function : MathFunction) (hint : Option Ty) :
    (functionType function hint).isNumeric = true := by
  unfold functionType
  split
  · rfl
  · split <;> rfl
  · rfl

theorem lowerMath_settles (function : MathFunction)
    (agree : Operand.AllAgree compiler state lefts rights) (hint : Option Ty) :
    LowerM.Settles compiler.typesInPlay state (lowerMath function compiler.catalog hint lefts)
      (lowerMath function compiler.catalog hint rights) compiler.CompoundIfAny := by
  have finish : ∀ (later : LowerState) (arguments : List Node) (type : Ty),
      LowerM.Settles compiler.typesInPlay later
        (if type.isNumeric then return some (.native (.math function) type arguments)
          else return none)
        (if type.isNumeric then return some (.native (.math function) type arguments)
          else return none) compiler.CompoundIfAny := by
    intro later arguments type
    split
    · rename_i numeric
      exact .pure (Compiler.CompoundIfAny.some ⟨Compiler.inPlay_of_isNumeric numeric, nofun⟩)
    · exact .pure nofun
  rw [lowerMath, lowerMath]
  dsimp only
  split
  · refine .bind (.mapM (fun node : Node => node.ty ∈ compiler.typesInPlay)
      (agree.imp fun left right agree later order => ?_)) fun later order nodes known => ?_
    · exact .bind (agree.lower later order _ (.numericHint hint)) fun _ _ _ inPlay =>
        Compiler.numeric_settles inPlay
    · exact .bind (Operand.unify_settles (agree.later order) known.1 known.2)
        fun last _ result _ => finish last result.1 result.2
  · have known : functionType function hint ∈ compiler.typesInPlay :=
      Compiler.inPlay_of_isNumeric (isNumeric_functionType function hint)
    refine .bind (.mapM (fun _ => True) (agree.imp fun left right agree later order => ?_))
      fun last _ nodes _ => finish last nodes (functionType function hint)
    exact Operand.lowerAs_settles (agree.later order) known

theorem lowerHost_settles {function : HostFunction} (registered : .host function ∈ compiler.builtins)
    (agree : Operand.AllAgree compiler state lefts rights) :
    LowerM.Settles compiler.typesInPlay state (lowerHost function compiler.catalog lefts)
      (lowerHost function compiler.catalog rights) compiler.CompoundIfAny := by
  have listed : ∀ type ∈ function.returnType :: function.parameters,
      type ∈ compiler.typesInPlay := fun type member => Compiler.inPlay_builtin registered member
  have pairs : ∀ parameters ⊆ function.parameters, List.Forall₂
      (fun left right : Operand × Ty => ∀ later, state.Extends later →
        LowerM.Settles compiler.typesInPlay later (left.1.lowerAs compiler.catalog left.2)
          (right.1.lowerAs compiler.catalog right.2) fun _ => True)
      (lefts.zip parameters) (rights.zip parameters) := by
    induction agree with
    | nil => exact fun _ _ => .nil
    | cons first _ ih =>
      intro parameters subset
      cases parameters with
      | nil => exact .nil
      | cons type parameters =>
        obtain ⟨member, rest⟩ := List.cons_subset.mp subset
        exact .cons (fun later order => Operand.lowerAs_settles (first.later order)
          (listed type (by simp [member]))) (ih parameters rest)
  refine .bind (.mapM (fun _ => True) (pairs function.parameters (List.Subset.refl _)))
    fun _ _ arguments _ => ?_
  exact .pure (Compiler.CompoundIfAny.some ⟨listed function.returnType (by simp), nofun⟩)

theorem lower_settles {builtin : Builtin} (regular : builtin.isCustom = false)
    (registered : builtin ∈ compiler.builtins)
    (agree : Operand.AllAgree compiler state lefts rights) (hints : compiler.Hints hint) :
    LowerM.Settles compiler.typesInPlay state (builtin.lower compiler.catalog hint lefts)
      (builtin.lower compiler.catalog hint rights) compiler.CompoundIfAny := by
  cases builtin with
  | conditional => exact lowerConditional_settles agree hints
  | math function => exact lowerMath_settles function agree hint
  | host function => exact lowerHost_settles registered agree
  | custom function => cases regular

theorem lowerCall_settles (regular : compiler.Regular)
    (agree : Operand.AllAgree compiler state lefts rights) (hints : compiler.Hints hint)
    (name : String) :
    LowerM.Settles compiler.typesInPlay state
      (lowerCall compiler.builtins compiler.catalog hint name lefts)
      (lowerCall compiler.builtins compiler.catalog hint name rights)
      (compiler.InPlay hint) := by
  rw [lowerCall, lowerCall, ← agree.length_eq]
  dsimp only
  split
  · exact .throw_bind nofun
  · split
    · exact .throw nofun
    · rename_i builtin found
      have registered : builtin ∈ compiler.builtins :=
        List.mem_of_mem_filter (List.mem_of_find?_eq_some found)
      refine .bind (lower_settles (regular.builtins builtin registered) registered agree hints)
        fun _ _ result compound => ?_
      cases result with
      | none => exact .throw nofun
      | some node => exact .pure (compound node rfl).inPlay

end Builtin

end Formulary
