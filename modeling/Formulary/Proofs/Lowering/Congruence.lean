import Formulary.Proofs.Lowering.Agreement
import Formulary.Proofs.Lowering.Alike

namespace Formulary

/-! Each function of lowering treats operands alike that are lowered alike. Only the literal
    exponents of powers are read off the trees of operands. -/

variable {state : LowerState} {left right : Operand} {lefts rights : List Operand}

theorem LowerM.Alike.compileFunction {signature : Signature} {name : String} {type : Ty}
    {body body' : LowerM Node}
    (alike : Alike (state.withFunctions (state.functions.reserve signature type)) Eq body body') :
    Alike state Eq (LowerM.compileFunction signature name type body)
      (LowerM.compileFunction signature name type body') := by
  obtain ⟨same, matched⟩ := alike
  rw [Alike, compileFunction_apply, compileFunction_apply]
  rcases run : body (state.withFunctions (state.functions.reserve signature type)) with
    ⟨_ | node, after⟩ <;>
  rcases run' : body' (state.withFunctions (state.functions.reserve signature type)) with
    ⟨_ | node', after'⟩ <;>
  simp only [run, run', Matches] at same matched
  · exact ⟨same ▸ rfl, trivial⟩
  · exact ⟨same ▸ matched ▸ rfl, rfl⟩

namespace Operand

theorem alike_of_akin (all : List.Forall₂ Akin lefts rights) :
    List.Forall₂ Alike lefts rights := all.imp fun _ _ akin => akin.alike

theorem mapM_alike (all : List.Forall₂ Alike lefts rights) (hint : Option Ty)
    (check : Node → Except CompileError Node) :
    LowerM.Alike state Eq
      (lefts.mapM fun operand => do
        let node ← operand.lower hint
        operand.locating (check node))
      (rights.mapM fun operand => do
        let node ← operand.lower hint
        operand.locating (check node)) := by
  refine .mapM_same (all.imp fun _ _ alike state => ?_)
  exact (alike state hint).bind_same fun _ _ => .locating _ _ _ _ (.refl _)

end Operand

namespace PowerStrategy

theorem chained_alike {strategies : List PowerStrategy}
    (regular : ∀ strategy ∈ strategies, strategy.isCustom = false) (catalog : Catalog)
    (spanOf : Expr → Option Span) (all : List.Forall₂ Operand.Akin lefts rights) :
    (chained strategies catalog spanOf lefts).Alike
      (chained strategies catalog spanOf rights) := by
  induction all with
  | nil => exact .refl _
  | cons first rest ih =>
    cases rest with
    | nil => exact first.alike
    | cons second others =>
      intro state hint
      rw [chained_cons, chained_cons]
      exact .locating _ _ _ _ (tryAll_alike regular ih first catalog hint _ _)

end PowerStrategy

namespace Builtin

theorem lowerConditional_alike (all : List.Forall₂ Operand.Alike lefts rights)
    (catalog : Catalog) (hint : Option Ty) :
    LowerM.Alike state Eq (lowerConditional catalog hint lefts)
      (lowerConditional catalog hint rights) := by
  -- Only three operands are a choice.
  rcases all with _ | ⟨condition, _ | ⟨positive, _ | ⟨negative, _ | _⟩⟩⟩
  case cons.cons.cons.nil =>
      have branches := List.Forall₂.cons positive (.cons negative .nil)
      refine (Operand.lowerAs_alike condition catalog .bool).bind_same fun after truth => ?_
      refine (Operand.lowerAll_alike hint branches).bind_same fun after nodes => ?_
      exact (Operand.unify_alike catalog branches nodes).bind_same fun _ _ => .refl _
  all_goals exact .refl _

theorem lowerMath_alike (all : List.Forall₂ Operand.Alike lefts rights)
    (function : MathFunction) (catalog : Catalog) (hint : Option Ty) :
    LowerM.Alike state Eq (lowerMath function catalog hint lefts)
      (lowerMath function catalog hint rights) := by
  unfold lowerMath
  dsimp only
  split
  · have numbers : LowerM.Alike state Eq
        (lefts.mapM fun operand => do
          catalog.numeric hint (← operand.lower (numericHint hint)))
        (rights.mapM fun operand => do
          catalog.numeric hint (← operand.lower (numericHint hint))) :=
      .mapM_same (all.imp fun _ _ alike state =>
        (alike state _).bind_same fun _ _ => .refl _)
    refine numbers.bind_same fun after nodes => ?_
    exact (Operand.unify_alike catalog all nodes).bind_same fun _ _ => .refl _
  · have converted : LowerM.Alike state Eq
        (lefts.mapM (Operand.lowerAs catalog (functionType function hint)))
        (rights.mapM (Operand.lowerAs catalog (functionType function hint))) :=
      .mapM_same (all.imp fun _ _ alike state => Operand.lowerAs_alike alike catalog _)
    exact converted.bind_same fun _ _ => .refl _

theorem lowerHost_alike (all : List.Forall₂ Operand.Alike lefts rights)
    (function : HostFunction) (catalog : Catalog) :
    LowerM.Alike state Eq (lowerHost function catalog lefts)
      (lowerHost function catalog rights) := by
  have pairs : ∀ parameters : List Ty, List.Forall₂
      (fun left right : Operand × Ty => ∀ state, LowerM.Alike state Eq
        (left.1.lowerAs catalog left.2) (right.1.lowerAs catalog right.2))
      (lefts.zip parameters) (rights.zip parameters) := by
    induction all with
    | nil => exact fun _ => .nil
    | cons first _ ih =>
      intro parameters
      cases parameters with
      | nil => exact .nil
      | cons type parameters =>
        exact .cons (fun state => Operand.lowerAs_alike first catalog type) (ih parameters)
  exact (LowerM.Alike.mapM_same (pairs function.parameters)).bind_same fun _ _ => .refl _

theorem lower_alike {builtin : Builtin} (regular : builtin.isCustom = false)
    (all : List.Forall₂ Operand.Alike lefts rights) (catalog : Catalog) (hint : Option Ty) :
    LowerM.Alike state Eq (builtin.lower catalog hint lefts)
      (builtin.lower catalog hint rights) := by
  cases builtin with
  | conditional => exact lowerConditional_alike all catalog hint
  | math function => exact lowerMath_alike all function catalog hint
  | host function => exact lowerHost_alike all function catalog
  | custom function => cases regular

theorem lowerCall_alike {builtins : List Builtin}
    (regular : ∀ builtin ∈ builtins, builtin.isCustom = false)
    (all : List.Forall₂ Operand.Alike lefts rights) (catalog : Catalog) (hint : Option Ty)
    (name : String) :
    LowerM.Alike state Eq (lowerCall builtins catalog hint name lefts)
      (lowerCall builtins catalog hint name rights) := by
  unfold lowerCall
  rw [all.length_eq]
  dsimp only
  split
  · exact .refl _
  · split
    · exact .refl _
    · rename_i builtin found
      have listed := List.mem_of_mem_filter (List.mem_of_find?_eq_some found)
      exact (lower_alike (regular builtin listed) all catalog hint).bind_same fun _ _ => .refl _

end Builtin

namespace Compiler

variable {compiler : Compiler}

theorem lowerUnary_alike (alike : left.Alike right) (hint : Option Ty) (op : UnaryOperator) :
    LowerM.Alike state Eq (compiler.lowerUnary hint op left)
      (compiler.lowerUnary hint op right) := by
  have number : LowerM.Alike state Eq
      (do compiler.catalog.numeric hint (← left.lower (numericHint hint)))
      (do compiler.catalog.numeric hint (← right.lower (numericHint hint))) :=
    (alike state _).bind_same fun _ _ => .refl _
  cases op with
  | negate | factorial => exact number.bind_same fun _ _ => .refl _
  | not => exact (alike state none).bind_same fun _ _ => .refl _

theorem lowerArithmetic_alike (all : List.Forall₂ Operand.Alike lefts rights) (hint : Option Ty)
    (op : Operator) :
    LowerM.Alike state Eq (compiler.lowerArithmetic hint op lefts)
      (compiler.lowerArithmetic hint op rights) := by
  refine (Operand.mapM_alike all _ _).bind_same fun after nodes => ?_
  exact (Operand.unify_alike compiler.catalog all nodes).bind_same fun _ _ => .refl _

theorem lowerComparison_alike (all : List.Forall₂ Operand.Alike lefts rights) (hint : Option Ty)
    (op : Operator) :
    LowerM.Alike state Eq (compiler.lowerComparison hint op lefts)
      (compiler.lowerComparison hint op rights) := by
  unfold lowerComparison
  rw [all.length_eq]
  dsimp only
  split
  · exact .refl _
  · refine (Operand.lowerAll_alike none all).bind_same fun after nodes => ?_
    exact (Operand.unify_alike compiler.catalog all nodes).bind_same fun _ _ => .refl _

theorem lowerLogic_alike (all : List.Forall₂ Operand.Alike lefts rights) (hint : Option Ty)
    (op : Operator) :
    LowerM.Alike state Eq (compiler.lowerLogic hint op lefts)
      (compiler.lowerLogic hint op rights) := by
  have truths : LowerM.Alike state Eq _ _ :=
    Operand.mapM_alike all none fun node => compiler.catalog.coerce node .bool
  exact truths.bind_same fun _ _ => .refl _

theorem lowerBinary_alike (regular : compiler.Regular)
    (all : List.Forall₂ Operand.Akin lefts rights) (spanOf : Expr → Option Span)
    (hint : Option Ty) (op : Operator) :
    LowerM.Alike state Eq (compiler.lowerBinary spanOf hint op lefts)
      (compiler.lowerBinary spanOf hint op rights) := by
  have alike := Operand.alike_of_akin all
  have reversed : List.Forall₂ Operand.Akin lefts.reverse rights.reverse :=
    List.forall₂_reverse_iff.mpr all
  unfold lowerBinary
  generalize lefts.reverse = ends at reversed ⊢
  generalize rights.reverse = ends' at reversed ⊢
  cases reversed with
  | nil => exact .throw _ _
  | cons last rest =>
    cases rest with
    | nil => exact last.alike state hint
    | cons next others =>
      dsimp only
      split
      · have base := PowerStrategy.chained_alike regular.strategies compiler.catalog spanOf
          (.cons next others)
        exact PowerStrategy.tryAll_alike regular.strategies base last _ _ _ _
      · split
        · exact lowerComparison_alike alike hint op
        · split
          · exact lowerLogic_alike alike hint op
          · exact lowerArithmetic_alike alike hint op

theorem lowerMember_alike (alike : left.Alike right) (name : String) :
    LowerM.Alike state Eq (compiler.lowerMember name left) (compiler.lowerMember name right) :=
  (alike state none).bind_same fun _ _ => .refl _

end Compiler

end Formulary
