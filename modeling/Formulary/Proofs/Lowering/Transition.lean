import Formulary.Lowering.Compile
import Formulary.Proofs.Lowering.Operation

namespace Formulary

/-! What lowering can do to the things it collects, told once for all of its functions. It reads
    inputs, numbers definitions, and compiles functions: such a function is reserved, and after the
    steps of its body it is stored or dropped again. -/

/-- The steps from a state to a later one, in which only certain inputs are read. -/
inductive LowerState.Leads (readable : String → Ty → Prop) : LowerState → LowerState → Prop
  | refl (state : LowerState) : Leads readable state state
  | trans {first second third : LowerState} (left : Leads readable first second)
      (right : Leads readable second third) : Leads readable first third
  | input {state : LowerState} {name : String} {type : Ty} (allowed : readable name type) :
      Leads readable state { state with slots := state.slots ++ [⟨name, type⟩] }
  | definition (state : LowerState) :
      Leads readable state (state.withFunctions
        { state.functions with nextDefinition := state.functions.nextDefinition + 1 })
  | stored {state after : LowerState} (signature : Signature) (type : Ty) (function : Function)
      (body : Leads readable
        (state.withFunctions (state.functions.reserve signature type)) after) :
      Leads readable state
        (after.withFunctions (after.functions.store state.functions.bodies.length function))
  | dropped {state after : LowerState} (signature : Signature) (type : Ty)
      (body : Leads readable
        (state.withFunctions (state.functions.reserve signature type)) after) :
      Leads readable state
        (after.withFunctions (after.functions.rollback state.functions.bodies.length))

variable {readable : String → Ty → Prop}

namespace LowerM

variable {α β : Type} {action : LowerM α}

theorem length_of_mapM {items : List α} {action : α → LowerM β} {values : List β}
    {before after : LowerState} (run : items.mapM action before = (.ok values, after)) :
    values.length = items.length := by
  induction items generalizing before values after with
  | nil =>
    cases run
    rfl
  | cons item rest ih =>
    simp only [List.mapM_cons, bind_apply] at run
    split at run
    case h_2 => cases run
    case h_1 value middle first =>
      split at run
      case h_2 => cases run
      case h_1 others last second =>
        cases run
        rw [List.length_cons, List.length_cons, ih second]

/-- Whatever its outcome is, an action takes steps only. -/
def Leads (readable : String → Ty → Prop) (action : LowerM α) : Prop :=
  ∀ state, LowerState.Leads readable state (action state).2

namespace Leads

theorem pure (value : α) : Leads readable (Pure.pure value : LowerM α) := .refl

theorem throw (error : CompileError) :
    Leads readable (MonadExcept.throw error : LowerM α) := .refl

theorem get : Leads readable (MonadState.get : LowerM LowerState) := .refl

theorem lift (value : Except CompileError α) : Leads readable (liftM value : LowerM α) := .refl

/-- What follows an action starts with one of its results. -/
theorem bind_of_run {next : α → LowerM β} (first : Leads readable action)
    (continued : ∀ before value after, action before = (.ok value, after) →
      Leads readable (next value)) : Leads readable (action >>= next) := by
  intro state
  have begun := first state
  rw [bind_apply]
  rcases run : action state with ⟨_ | value, after⟩ <;> rw [run] at begun
  · exact begun
  · exact begun.trans (continued state value after run after)

theorem bind {next : α → LowerM β} (first : Leads readable action)
    (continued : ∀ value, Leads readable (next value)) : Leads readable (action >>= next) :=
  first.bind_of_run fun _ value _ _ => continued value

theorem throw_bind (error : CompileError) (next : α → LowerM β) :
    Leads readable ((MonadExcept.throw error : LowerM α) >>= next) := .refl

theorem locating (expr : Expr) (span : Option Span) (leads : Leads readable action) :
    Leads readable (LowerM.locating expr span action) := leads

theorem attempt (leads : Leads readable action) : Leads readable (LowerM.attempt action) := leads

theorem mapM {items : List α} {action : α → LowerM β}
    (leads : ∀ item ∈ items, Leads readable (action item)) :
    Leads readable (items.mapM action) := by
  induction items with
  | nil => exact .pure []
  | cons item rest ih =>
    rw [List.mapM_cons]
    refine .bind (leads item List.mem_cons_self) fun value => ?_
    refine .bind (ih fun other member => leads other (List.mem_cons_of_mem _ member)) fun _ => ?_
    exact .pure _

theorem slotIndex {name : String} {type : Ty} (allowed : readable name type) :
    Leads readable (LowerM.slotIndex name type) := by
  intro state
  simp only [LowerM.slotIndex, bind_apply, get_apply]
  cases state.slots.findIdx? fun slot => slot.name == name with
  | some index => exact .refl state
  | none => exact .input allowed

theorem freshDefinition : Leads readable LowerM.freshDefinition := .definition

theorem compileFunction {signature : Signature} {name : String} {type : Ty}
    {lowerBody : LowerM Node} (leads : Leads readable lowerBody) :
    Leads readable (LowerM.compileFunction signature name type lowerBody) := by
  intro state
  have body := leads (state.withFunctions (state.functions.reserve signature type))
  rw [compileFunction_apply]
  rcases run : lowerBody (state.withFunctions (state.functions.reserve signature type)) with
    ⟨_ | node, after⟩ <;> rw [run] at body
  · exact .dropped signature type body
  · exact .stored signature type _ body

end Leads

end LowerM

namespace Operand

variable {operands : List Operand}

def Leads (readable : String → Ty → Prop) (operand : Operand) : Prop :=
  ∀ hint, (operand.lower hint).Leads readable

theorem Leads.unlowered : Leads readable (default : Operand) := fun _ => .throw _

theorem lowerAs_leads {operand : Operand} (leads : operand.Leads readable) (catalog : Catalog)
    (type : Ty) : (operand.lowerAs catalog type).Leads readable :=
  .bind (leads _) fun _ => .locating _ _ (.lift _)

theorem lowerRest_leads (leads : ∀ operand ∈ operands, operand.Leads readable)
    (catalog : Catalog) (type : Ty) (nodes : List Node) :
    (lowerRest catalog type operands nodes).Leads readable := by
  induction operands generalizing nodes with
  | nil => exact .pure []
  | cons operand rest ih =>
    cases nodes with
    | nil => exact .pure []
    | cons node nodes =>
      have others := ih (fun other member => leads other (List.mem_cons_of_mem _ member)) nodes
      rw [lowerRest]
      split
      · exact .bind (.pure node) fun _ => .bind others fun _ => .pure _
      · exact .bind (lowerAs_leads (leads operand List.mem_cons_self) catalog type) fun _ =>
          .bind others fun _ => .pure _

theorem unify_leads (leads : ∀ operand ∈ operands, operand.Leads readable) (catalog : Catalog)
    (nodes : List Node) : (unify catalog operands nodes).Leads readable := by
  unfold unify
  split
  · exact .throw _
  · split
    · exact .pure _
    · exact .bind (.lift _) fun widest =>
        .bind (lowerRest_leads leads catalog widest _) fun _ => .pure _

theorem lowerAll_leads (leads : ∀ operand ∈ operands, operand.Leads readable)
    (hint : Option Ty) : (lowerAll hint operands).Leads readable :=
  .mapM fun operand member => leads operand member hint

end Operand

theorem foldNodes_leads (combine : Node → Node → Node) (nodes : List Node) :
    (foldNodes combine nodes).Leads readable := by
  cases nodes with
  | nil => exact .throw _
  | cons first rest => exact .pure _

namespace PowerStrategy

variable {base exponent : Operand}

/-- A strategy that reaches what lowering collects only through its operands. -/
def Transparent (strategy : PowerStrategy) : Prop :=
  ∀ readable catalog hint base exponent, Operand.Leads readable base →
    Operand.Leads readable exponent →
      (strategy.lower catalog hint base exponent).Leads readable

theorem transparent_of_regular {strategy : PowerStrategy} (regular : strategy.isCustom = false) :
    strategy.Transparent := by
  intro readable catalog hint base exponent bases exponents
  cases strategy with
  | integerExponent =>
    simp only [lower, lowerIntegerExponent]
    split
    · exact .pure none
    · refine .bind (bases _) fun node => ?_
      split
      · exact .pure none
      · split
        · exact .pure _
        · exact .throw _
  | sameType =>
    refine .bind (bases _) fun left => .bind (exponents _) fun right => ?_
    split <;> exact .pure _
  | widestType =>
    have both : ∀ operand ∈ [base, exponent], operand.Leads readable := by
      simpa using ⟨bases, exponents⟩
    refine .bind (Operand.lowerAll_leads both _) fun nodes => ?_
    refine .bind (Operand.unify_leads both catalog nodes) fun unified => ?_
    dsimp only
    split
    · split <;> exact .pure _
    · exact .pure none
  | custom name lower => cases regular

theorem tryAll_leads {strategies : List PowerStrategy}
    (transparent : ∀ strategy ∈ strategies, strategy.Transparent)
    (bases : base.Leads readable) (exponents : exponent.Leads readable) (catalog : Catalog)
    (hint : Option Ty) (failure : CompileError) :
    (tryAll catalog hint base exponent failure strategies).Leads readable := by
  induction strategies generalizing failure with
  | nil => exact .throw _
  | cons strategy rest ih =>
    have others := fun failure => ih (fun other member =>
      transparent other (List.mem_cons_of_mem _ member)) failure
    refine .bind (.attempt (transparent strategy List.mem_cons_self readable catalog hint base
      exponent bases exponents)) fun outcome => ?_
    split
    · exact .pure _
    · exact others failure
    · exact others _

theorem chained_leads {strategies : List PowerStrategy}
    (transparent : ∀ strategy ∈ strategies, strategy.Transparent) (catalog : Catalog)
    (spanOf : Expr → Option Span) {operands : List Operand}
    (leads : ∀ operand ∈ operands, operand.Leads readable) :
    (chained strategies catalog spanOf operands).Leads readable := by
  induction operands with
  | nil => exact .unlowered
  | cons exponent rest ih =>
    cases rest with
    | nil => exact leads exponent List.mem_cons_self
    | cons next rest =>
      have base := ih fun other member => leads other (List.mem_cons_of_mem _ member)
      intro hint
      exact .locating _ _ (tryAll_leads transparent base (leads exponent List.mem_cons_self)
        catalog hint _)

end PowerStrategy

namespace Builtin

variable {operands : List Operand}

/-- A function that reaches what lowering collects only through its operands. -/
def Transparent (builtin : Builtin) : Prop :=
  ∀ readable catalog hint operands, (∀ operand ∈ operands, Operand.Leads readable operand) →
    (builtin.lower catalog hint operands).Leads readable

theorem lowerConditional_leads (leads : ∀ operand ∈ operands, operand.Leads readable)
    (catalog : Catalog) (hint : Option Ty) :
    (lowerConditional catalog hint operands).Leads readable := by
  unfold lowerConditional
  split
  case h_2 => exact .pure none
  case h_1 condition positive negative =>
    have branches : ∀ operand ∈ [positive, negative], operand.Leads readable :=
      fun operand member => leads operand (List.mem_cons_of_mem _ member)
    refine .bind (Operand.lowerAs_leads (leads condition List.mem_cons_self) catalog _)
      fun _ => ?_
    refine .bind (Operand.lowerAll_leads branches hint) fun nodes => ?_
    refine .bind (Operand.unify_leads branches catalog nodes) fun unified => ?_
    dsimp only
    split <;> exact .pure _

theorem lowerMath_leads (leads : ∀ operand ∈ operands, operand.Leads readable)
    (function : MathFunction) (catalog : Catalog) (hint : Option Ty) :
    (lowerMath function catalog hint operands).Leads readable := by
  have finish : ∀ (type : Ty) (arguments : List Node), LowerM.Leads readable
      (if type.isNumeric then return some (Node.native (.math function) type arguments)
        else return none) := by
    intro type arguments
    split <;> exact .pure _
  unfold lowerMath
  dsimp only
  split
  · refine .bind (.mapM fun operand member => ?_) fun nodes =>
      .bind (Operand.unify_leads leads catalog nodes) fun unified => finish _ _
    exact .bind (leads operand member _) fun _ => .lift _
  · exact .bind (.mapM fun operand member =>
      Operand.lowerAs_leads (leads operand member) catalog _) fun nodes => finish _ _

theorem lowerHost_leads (leads : ∀ operand ∈ operands, operand.Leads readable)
    (function : HostFunction) (catalog : Catalog) :
    (lowerHost function catalog operands).Leads readable := by
  refine .bind (.mapM fun pair member => ?_) fun _ => .pure _
  exact Operand.lowerAs_leads (leads pair.1 (List.of_mem_zip member).1) catalog pair.2

theorem transparent_of_regular {builtin : Builtin} (regular : builtin.isCustom = false) :
    builtin.Transparent := by
  intro readable catalog hint operands leads
  cases builtin with
  | conditional => exact lowerConditional_leads leads catalog hint
  | math function => exact lowerMath_leads leads function catalog hint
  | host function => exact lowerHost_leads leads function catalog
  | custom function => cases regular

theorem lowerCall_leads {builtins : List Builtin}
    (transparent : ∀ builtin ∈ builtins, builtin.Transparent)
    (leads : ∀ operand ∈ operands, operand.Leads readable) (catalog : Catalog) (hint : Option Ty)
    (name : String) : (lowerCall builtins catalog hint name operands).Leads readable := by
  unfold lowerCall
  dsimp only
  split
  · exact .throw_bind _ _
  · split
    · exact .throw _
    · rename_i builtin found
      have listed := List.mem_of_mem_filter (List.mem_of_find?_eq_some found)
      refine .bind (transparent builtin listed readable catalog hint operands leads) fun node => ?_
      split
      · exact .pure _
      · exact .throw _

end Builtin

namespace Compiler

/-- Functions and strategies of the host reach what lowering collects only through their
    operands. -/
structure Transparent (compiler : Compiler) : Prop where
  builtins : ∀ builtin ∈ compiler.builtins, builtin.Transparent
  strategies : ∀ strategy ∈ compiler.strategies, strategy.Transparent

theorem Regular.transparent {compiler : Compiler} (regular : compiler.Regular) :
    compiler.Transparent where
  builtins builtin listed := Builtin.transparent_of_regular (regular.builtins builtin listed)
  strategies strategy listed :=
    PowerStrategy.transparent_of_regular (regular.strategies strategy listed)

variable {compiler : Compiler} {operands : List Operand}

theorem lowerUnary_leads {operand : Operand} (leads : operand.Leads readable) (hint : Option Ty)
    (op : UnaryOperator) : (compiler.lowerUnary hint op operand).Leads readable := by
  have number : LowerM.Leads readable
      (do compiler.catalog.numeric hint (← operand.lower (numericHint hint))) :=
    .bind (leads _) fun _ => .lift _
  cases op with
  | negate | factorial => exact .bind number fun _ => .pure _
  | not => exact .bind (leads none) fun _ => .bind (.lift _) fun _ => .lift _

theorem lowerArithmetic_leads (leads : ∀ operand ∈ operands, operand.Leads readable)
    (hint : Option Ty) (op : Operator) :
    (compiler.lowerArithmetic hint op operands).Leads readable := by
  refine .bind (.mapM fun operand member => ?_) fun nodes => ?_
  · exact .bind (leads operand member _) fun _ => .locating _ _ (.lift _)
  · refine .bind (Operand.unify_leads leads compiler.catalog nodes) fun unified => ?_
    dsimp only
    split
    · exact .throw_bind _ _
    · exact foldNodes_leads _ _

theorem lowerComparison_leads (leads : ∀ operand ∈ operands, operand.Leads readable)
    (hint : Option Ty) (op : Operator) :
    (compiler.lowerComparison hint op operands).Leads readable := by
  unfold lowerComparison
  dsimp only
  split
  · exact .throw_bind _ _
  · refine .bind (Operand.lowerAll_leads leads none) fun nodes => ?_
    refine .bind (Operand.unify_leads leads compiler.catalog nodes) fun unified => ?_
    exact .bind (foldNodes_leads _ _) fun _ => .lift _

theorem lowerLogic_leads (leads : ∀ operand ∈ operands, operand.Leads readable)
    (hint : Option Ty) (op : Operator) :
    (compiler.lowerLogic hint op operands).Leads readable := by
  refine .bind (.mapM fun operand member => ?_) fun nodes => ?_
  · exact .bind (leads operand member _) fun _ => .locating _ _ (.lift _)
  · exact .bind (foldNodes_leads _ _) fun _ => .lift _

theorem lowerBinary_leads (transparent : compiler.Transparent)
    (leads : ∀ operand ∈ operands, operand.Leads readable) (spanOf : Expr → Option Span)
    (hint : Option Ty) (op : Operator) :
    (compiler.lowerBinary spanOf hint op operands).Leads readable := by
  have reversed : ∀ operand ∈ operands.reverse, operand.Leads readable := fun operand member =>
    leads operand (List.mem_reverse.mp member)
  unfold lowerBinary
  split
  · exact .throw _
  · rename_i operand equal
    exact reversed operand (by simp [equal]) hint
  · rename_i last rest _ equal
    rw [equal] at reversed
    split
    · have base := PowerStrategy.chained_leads transparent.strategies compiler.catalog spanOf
        fun other member => reversed other (List.mem_cons_of_mem _ member)
      exact PowerStrategy.tryAll_leads transparent.strategies base
        (reversed last List.mem_cons_self) compiler.catalog hint _
    · split
      · exact lowerComparison_leads leads hint op
      · split
        · exact lowerLogic_leads leads hint op
        · exact lowerArithmetic_leads leads hint op

theorem lowerMember_leads {target : Operand} (leads : target.Leads readable) (name : String) :
    (compiler.lowerMember name target).Leads readable := by
  refine .bind (leads none) fun node => ?_
  split
  · exact .pure _
  · exact .throw _

end Compiler

end Formulary
