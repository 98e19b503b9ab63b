import Formulary.Proofs.Lowering.Grouping
import Formulary.Proofs.Lowering.Scalar
import Formulary.Proofs.Simplify.Substitute

namespace Formulary

/-! Trees over numbers and truth values are lowered without failure, with the functions that they
    define. -/

namespace Scope

def arities (definitions : List (Nat × Definition)) : List (String × Nat) :=
  definitions.map fun entry => (entry.2.name, entry.2.parameters.length)

theorem lookup_arities (name : String) (definitions : List (Nat × Definition)) :
    (arities definitions).lookup name =
      (visible name definitions).head?.map fun entry => entry.2.parameters.length := by
  induction definitions with
  | nil => rfl
  | cons entry below ih =>
    rw [arities, List.map_cons, List.lookup_cons, visible, Bool.beq_comm]
    split <;> rename_i named
    · rw [if_pos named]
      rfl
    · rw [if_neg (by simp [named]), ← ih]
      rfl

theorem visible_suffix (name : String) (definitions : List (Nat × Definition)) :
    visible name definitions <:+ definitions := by
  induction definitions with
  | nil => exact List.suffix_refl _
  | cons entry below ih =>
    rw [visible]
    split
    · exact List.suffix_refl _
    · exact ih.trans (List.suffix_cons _ _)

/-- The parameters are numbers, and the bodies of the definitions are trees over numbers and truth
    values, each with the definitions it sees. -/
structure Scalar (compiler : Compiler) (parameters : List String) (scope : Scope) : Prop where
  bound : ∀ name ∈ parameters, ∃ index type,
    scope.parameters.lookup name = some (index, type) ∧ type.isNumeric
  free : ∀ name ∉ parameters, scope.parameters.lookup name = none
  bodies : ∀ entry below, entry :: below <:+ scope.definitions →
    entry.2.body.Scalar compiler .scalar entry.2.parameters (arities (entry :: below))

variable {compiler : Compiler} {parameters : List String} {scope : Scope}

theorem Scalar.withHint (scalar : scope.Scalar compiler parameters) (hint : Option Ty) :
    (scope.withHint hint).Scalar compiler parameters :=
  ⟨scalar.bound, scalar.free, scalar.bodies⟩

theorem Scalar.outermost (hint : Option Ty) : Scope.Scalar compiler [] { hint } where
  bound := nofun
  free := fun _ _ => rfl
  bodies := fun _ _ inner => by simp at inner

theorem Scalar.define (scalar : scope.Scalar compiler parameters) {name : String}
    {own : List String} {body : Expr} (number : Nat)
    (inside : body.Scalar compiler .scalar own ((name, own.length) :: arities scope.definitions)) :
    Scope.Scalar compiler parameters
      { scope with definitions := (number, ⟨name, own, body⟩) :: scope.definitions } where
  bound := scalar.bound
  free := scalar.free
  bodies := by
    intro entry below inner
    rcases List.suffix_cons_iff.mp inner with same | inner
    · cases same
      exact inside
    · exact scalar.bodies entry below inner

theorem parameters_eq (names : List String) (types : List Ty) :
    ((names.zip types.zipIdx).reverse.map fun (name, type, index) => (name, index, type)) =
      (names.zip (types.zipIdx.map Prod.swap)).reverse := by
  rw [List.zip_map_right, List.map_reverse]
  rfl

theorem Scalar.inside {definitions : List (Nat × Definition)} {names : List String}
    {types : List Ty} (hint : Option Ty) (sized : types.length = names.length)
    (numbers : ∀ type ∈ types, type.isNumeric)
    (bodies : ∀ entry below, entry :: below <:+ definitions →
      entry.2.body.Scalar compiler .scalar entry.2.parameters (arities (entry :: below))) :
    Scope.Scalar compiler names {
      hint
      parameters := (names.zip types.zipIdx).reverse.map
        fun (name, type, index) => (name, index, type)
      definitions } where
  bound := by
    intro name member
    rw [parameters_eq]
    cases found : (names.zip (types.zipIdx.map Prod.swap)).reverse.lookup name with
    | none => exact absurd member (not_mem_of_lookup_zip (by simpa using sized) found)
    | some entry =>
      obtain ⟨⟨type, index⟩, listed, rfl⟩ := List.mem_map.mp (mem_of_lookup_zip found)
      have typed := List.mem_zipIdx_iff_getElem?.mp listed
      exact ⟨index, type, rfl, numbers type (List.mem_of_getElem? typed)⟩
  free := by
    intro name absent
    rw [parameters_eq]
    exact lookup_zip_of_not_mem absent _
  bodies := bodies

end Scope

namespace Compiler

variable {compiler : Compiler} {place : Place} {parameters : List String} {scope : Scope}
variable {enter : Expr → Scope → Ty → LowerM Node} {name : String}

theorem slotIndex_succeeds (name : String) (type : Ty) :
    LowerM.Succeeds (LowerM.slotIndex name type) fun _ => True :=
  .slotIndex (fun _ _ _ => trivial) fun sound _ =>
    ⟨(), le_refl _, ⟨sound.numbered, sound.returns⟩, trivial⟩

theorem freshDefinition_succeeds : LowerM.Succeeds LowerM.freshDefinition fun _ => True :=
  .freshDefinition fun sound => ⟨(), le_refl _, ⟨sound.numbered, sound.returns⟩, trivial⟩

theorem compileFunction_succeeds {signature : Signature} {type : Ty} {lowerBody : LowerM Node}
    {result : Node → Prop} (numeric : type.isNumeric)
    (succeeds : LowerM.Succeeds lowerBody result) :
    LowerM.Succeeds (LowerM.compileFunction signature name type lowerBody) fun _ => True := by
  refine .compileFunction (fun _ => result) (fun sound => sound.numbered) fun {before} sound => ?_
  refine ⟨(), le_refl _, sound.reserve signature (Ty.mem_numbers.mpr numeric), succeeds, ?_, ?_⟩
  · intro _ after body _ afterSound _ _
    exact ⟨(), le_refl _, trivial, afterSound.numbered.store _ _, afterSound.returns⟩
  · intro _ after _ _
    exact ⟨(), le_refl _, sound.numbered, sound.returns⟩

theorem literal_admitted (suits : place.Suits hint) (value : Decimal) :
    place.Admits (literalValue hint value).ty := by
  unfold literalValue
  split
  · rename_i type kept
    obtain ⟨wanted, suitable⟩ := Option.filter_eq_some_iff.mp kept
    cases embedded : Value.ofDecimal value type with
    | error _ => exact .of_numeric (isNumeric_naturalValue value)
    | ok literal =>
      change place.Admits literal.ty
      rw [Value.ty_ofDecimal embedded]
      refine ⟨suitable, fun number => Ty.isNumeric_of_isScalar suitable fun truth => ?_⟩
      exact suits.truth (by rw [number]; nofun) (truth ▸ wanted)
  · exact .of_numeric (isNumeric_naturalValue value)

theorem constant_embedded {digits : Decimal} (hint : Option Ty)
    (finite : ∀ type : Ty, type.isFloat → ∃ value, Value.ofDecimal digits type = .ok value) :
    ∃ value, Value.ofDecimal digits
      ((hint.filter fun type => type.isFloat || type = .decimal).getD .float64) = .ok value := by
  cases kept : hint.filter fun type => type.isFloat || type = .decimal with
  | none => exact finite .float64 rfl
  | some type =>
    have suitable := (Option.filter_eq_some_iff.mp kept).2
    rw [Bool.or_eq_true, decide_eq_true_eq] at suitable
    rcases suitable with float | rfl
    · exact finite type float
    · exact ⟨.decimal digits, rfl⟩

/-- Bodies are lowered to every type of numbers. -/
def EntersScalar (compiler : Compiler) (enter : Expr → Scope → Ty → LowerM Node) : Prop :=
  ∀ {expr scope type parameters}, scope.Scalar compiler parameters →
    expr.Scalar compiler .scalar parameters (Scope.arities scope.definitions) →
    type.isNumeric → LowerM.Succeeds (enter expr scope type) fun _ => True

theorem lowerCall_succeeds (enters : compiler.EntersScalar enter)
    (scalar : scope.Scalar compiler parameters) (away : place ≠ .condition)
    (suits : place.Suits scope.hint) (returns : compiler.options.expectReturn.isNumeric)
    {operands : List Operand}
    (known : (Scope.arities scope.definitions).lookup name = some operands.length)
    (lowers : ∀ operand ∈ operands, operand.Lowers .number) :
    LowerM.Succeeds (compiler.lowerCall enter scope name operands)
      fun node => node.ty.isNumeric := by
  have returned : (scope.hint.getD compiler.options.expectReturn).isNumeric := by
    cases hint : scope.hint with
    | none => exact returns
    | some type =>
      exact Ty.isNumeric_of_isScalar (suits.scalar type hint)
        fun truth : type = .bool => suits.truth away (by rw [hint, truth])
  rw [Scope.lookup_arities] at known
  unfold lowerCall
  cases seen : Scope.visible name scope.definitions with
  | nil =>
    rw [seen] at known
    cases known
  | cons entry below =>
    obtain ⟨number, definition⟩ := entry
    rw [seen] at known
    have arity : definition.parameters.length = operands.length := Option.some.inj known
    have inner := seen ▸ Scope.visible_suffix name scope.definitions
    dsimp only
    rw [if_neg (not_not.mpr arity.symm)]
    refine .bind (LowerM.Succeeds.mapM _ fun operand member =>
      lowers operand member _ (.numericHint scope.hint)) fun _ _ arguments admitted => ?_
    refine .bind .get fun _ _ state sound => ?_
    -- The function is there for these types already, or it is compiled now.
    split
    · rename_i index type found
      exact .pure (Ty.mem_numbers.mp (sound.returns _ (FunctionTable.mem_of_lookup found)))
    · have numbers : ∀ type ∈ arguments.map Node.ty, type.isNumeric := by
        intro type member
        obtain ⟨node, listed, rfl⟩ := List.mem_map.mp member
        exact (admitted.2 node listed).number rfl
      have inside := Scope.Scalar.inside
        (some (scope.hint.getD compiler.options.expectReturn))
        (by rw [List.length_map, admitted.1, arity]) numbers
        fun other rest within => scalar.bodies other rest (within.trans inner)
      refine .bind (compileFunction_succeeds returned
        (enters inside (scalar.bodies _ _ inner) returned)) fun _ _ index _ => ?_
      exact .pure returned

theorem defines_of_lookup {count : Nat}
    (known : (Scope.arities scope.definitions).lookup name = some count) :
    scope.defines name = true := by
  rw [Scope.lookup_arities] at known
  rw [Scope.defines]
  cases seen : Scope.visible name scope.definitions with
  | nil =>
    rw [seen] at known
    cases known
  | cons => rfl

theorem defines_of_lookup_none
    (absent : (Scope.arities scope.definitions).lookup name = none) :
    scope.defines name = false := by
  rw [Scope.lookup_arities, Option.map_eq_none_iff, List.head?_eq_none_iff] at absent
  rw [Scope.defines, absent]
  rfl

theorem length_operandsWith (spanOf : Expr → Option Span) (exprs : List Expr) :
    (compiler.operandsWith spanOf enter exprs scope).length = exprs.length := by
  rw [operandsWith_eq_map, List.length_map]

theorem operandsWith_lower {spanOf : Expr → Option Span} {exprs : List Expr}
    (lowers : ∀ expr ∈ exprs, ∀ hint, place.Suits hint →
      LowerM.Succeeds (compiler.lowerWith spanOf enter expr (scope.withHint hint))
        fun node => place.Admits node.ty) :
    ∀ operand ∈ compiler.operandsWith spanOf enter exprs scope, operand.Lowers place := by
  intro operand member
  rw [operandsWith_eq_map] at member
  obtain ⟨expr, listed, rfl⟩ := List.mem_map.mp member
  exact lowers expr listed

/-- Every tree over numbers and truth values is lowered when bodies are. -/
theorem lowerWith_succeeds (default : compiler.Standard) (spanOf : Expr → Option Span)
    (enters : compiler.EntersScalar enter) {functions : List (String × Nat)} {expr : Expr}
    (tree : expr.Scalar compiler place parameters functions)
    (scalar : scope.Scalar compiler parameters)
    (same : Scope.arities scope.definitions = functions) (suits : place.Suits scope.hint) :
    LowerM.Succeeds (compiler.lowerWith spanOf enter expr scope)
      fun node => place.Admits node.ty := by
  induction tree generalizing scope with
  | number value => exact .pure (literal_admitted suits value)
  | @parameter place parameters functions name bound =>
    obtain ⟨index, type, found, numeric⟩ := scalar.bound name bound
    refine .locating ?_
    rw [lowerVariable, found]
    exact .pure (.of_numeric numeric)
  | input free given suitable number =>
    refine .locating ?_
    rw [lowerVariable, scalar.free _ free, given]
    exact .bind (slotIndex_succeeds _ _) fun _ _ _ _ => .pure ⟨suitable, number⟩
  | constant free absent known finite =>
    refine .locating ?_
    rw [lowerVariable, scalar.free _ free, absent, known]
    obtain ⟨value, embedded⟩ := constant_embedded scope.hint finite
    dsimp only
    rw [embedded]
    refine .pure (.of_numeric ?_)
    change value.ty.isNumeric = true
    rw [Value.ty_ofDecimal embedded]
    exact isNumeric_constantType scope.hint
  | unary _ ih =>
    exact .locating (lowerUnary_succeeds default
      (fun hint fits => ih (scalar.withHint hint) same fits) suits _)
  | binary other several pair _ ih =>
    have lowers := operandsWith_lower fun expr listed hint fits =>
      ih expr listed (scalar.withHint hint) same fits
    exact .locating (lowerBinary_succeeds default spanOf (by rwa [length_operandsWith]) other
      (by rwa [length_operandsWith]) lowers suits)
  | power _ several _ ih =>
    have lowers := operandsWith_lower fun expr listed hint fits =>
      ih expr listed (scalar.withHint hint) same fits
    exact .locating (.weaken (lowerBinary_power_succeeds default spanOf
      (by rwa [length_operandsWith]) lowers scope.hint)
      (fun _ _ _ numeric => .of_numeric numeric) id)
  | choice builtin _ _ _ truth left right =>
    refine .locating ?_
    dsimp only
    rw [Bool.false_or, defines_of_lookup_none (same ▸ builtin), default.builtins,
      default.catalog]
    exact Builtin.lowerCall_if_succeeds
      (fun hint fits => truth (scalar.withHint hint) same fits)
      (fun hint fits => left (scalar.withHint hint) same fits)
      (fun hint fits => right (scalar.withHint hint) same fits) suits
  | math _ builtin arity _ ih =>
    have lowers := operandsWith_lower fun expr listed hint fits =>
      ih expr listed (scalar.withHint hint) same fits
    refine .locating ?_
    dsimp only
    rw [Bool.false_or, defines_of_lookup_none (same ▸ builtin), default.builtins,
      default.catalog]
    exact .weaken (Builtin.lowerCall_math_succeeds (by rwa [length_operandsWith]) lowers
      scope.hint) (fun _ _ _ numeric => .of_numeric numeric) id
  | @exponential _ _ _ argument function _ either builtin _ ih =>
    have lowers : ∀ operand ∈ compiler.operandsWith spanOf enter [argument] scope,
        operand.Lowers .number := operandsWith_lower fun expr listed hint fits =>
      List.mem_singleton.mp listed ▸ ih (scalar.withHint hint) same fits
    have arity : (compiler.operandsWith spanOf enter [argument] scope).length = function.arity := by
      rcases either with rfl | rfl <;> rfl
    refine .locating ?_
    dsimp only
    rw [Bool.false_or, defines_of_lookup_none (same ▸ builtin), default.builtins,
      default.catalog]
    exact .weaken (Builtin.lowerCall_math_succeeds arity lowers scope.hint)
      (fun _ _ _ numeric => .of_numeric numeric) id
  | call away returns known _ ih =>
    have lowers := operandsWith_lower fun expr listed hint fits =>
      ih expr listed (scalar.withHint hint) same fits
    refine .locating ?_
    dsimp only
    rw [defines_of_lookup (same ▸ known), Bool.or_true]
    exact .weaken (lowerCall_succeeds enters scalar away suits returns
      (by rwa [length_operandsWith, same]) lowers) (fun _ _ _ numeric => .of_numeric numeric) id
  | define _ inside _ _ outside =>
    refine .locating (.bind freshDefinition_succeeds fun _ _ number _ => ?_)
    refine outside (scalar.define number (same ▸ inside)) ?_ suits
    rw [Scope.arities, List.map_cons, ← same]
    rfl

/-- Bodies nested too deep are taken for lowered; there are none. -/
def lowerBeyond (_ : Expr) (_ : Scope) (type : Ty) : LowerM Node := return .parameter 0 type

theorem lowerFrom_enters (default : compiler.Standard) (spanOf : Expr → Option Span)
    (depth : Nat) : compiler.EntersScalar (compiler.lowerFrom spanOf lowerBeyond depth) := by
  induction depth with
  | zero => exact fun _ _ _ => .pure trivial
  | succ depth ih =>
    intro expr scope type parameters scalar tree numeric
    rw [lowerFrom]
    refine .bind (lowerWith_succeeds default spanOf ih tree (scalar.withHint _) rfl
      (.of_numeric numeric)) fun _ _ node admitted => ?_
    rw [default.catalog]
    exact .locating ((coerce_succeeds admitted.scalar (Ty.isScalar_of_isNumeric numeric)).weaken
      (fun _ _ _ _ => trivial) id)

theorem Standard.regular (default : compiler.Standard) : compiler.Regular where
  builtins := by
    rw [default.builtins]
    decide
  strategies := by
    rw [default.strategies]
    decide

/-- A tree over numbers and truth values is lowered to any of these types. -/
theorem lowerTo_succeeds (default : compiler.Standard) (spanOf : Expr → Option Span) {type : Ty}
    {expr : Expr} (tree : expr.Scalar compiler place [] []) (suits : place.Suits (some type)) :
    LowerM.Succeeds (compiler.lowerTo spanOf type expr) fun _ => True := by
  have scalar := suits.scalar type rfl
  have known : type ∈ compiler.typesInPlay := by
    by_cases truth : type = .bool
    · exact truth ▸ inPlay_bool
    · exact inPlay_of_isNumeric (Ty.isNumeric_of_isScalar scalar truth)
  have deep : LowerM.Succeeds (compiler.lowerFrom spanOf lowerBeyond
      (compiler.nestingBound expr + 1) expr { hint := some type } type) fun _ => True := by
    rw [lowerFrom]
    refine .bind (lowerWith_succeeds default spanOf (lowerFrom_enters default spanOf _) tree
      (.outermost _) rfl suits) fun _ _ node admitted => ?_
    rw [default.catalog]
    exact .locating ((coerce_succeeds admitted.scalar scalar).weaken (fun _ _ _ _ => trivial) id)
  intro before outcome after sound run
  have wider : before.Sound compiler.typesInPlay :=
    ⟨sound.numbered, fun entry member =>
      inPlay_of_isNumeric (Ty.mem_numbers.mp (sound.returns entry member))⟩
  obtain ⟨settled, last, bounded, unbounded, -⟩ :=
    lowerTo_settles default.regular spanOf lowerBeyond known expr (Nat.le_succ _) wider
  rw [bounded] at run
  cases run
  exact deep sound unbounded

theorem guarded_succeeds (default : compiler.Standard) (spanOf : Expr → Option Span)
    {restrictions : List Expr}
    (trees : ∀ restriction ∈ restrictions, restriction.Scalar compiler .condition [] [])
    (body : Node) :
    LowerM.Succeeds (compiler.guarded spanOf restrictions body) fun _ => True := by
  rw [guarded]
  replace trees : ∀ restriction ∈ restrictions.reverse,
      restriction.Scalar compiler .condition [] [] :=
    fun restriction member => trees restriction (List.mem_reverse.mp member)
  generalize restrictions.reverse = remaining at trees
  induction remaining generalizing body with
  | nil => exact .pure trivial
  | cons restriction rest ih =>
    rw [List.foldlM_cons]
    have one : LowerM.Succeeds (do
        let condition ← compiler.lowerTo spanOf .bool restriction
        return Node.guard restriction.display condition body) fun _ => True :=
      .bind (lowerTo_succeeds default spanOf (trees restriction List.mem_cons_self) .condition)
        fun _ _ _ _ => .pure trivial
    exact .bind one fun _ _ node _ =>
      ih node fun other member => trees other (List.mem_cons_of_mem _ member)

end Compiler

end Formulary
