import Formulary.Evaluation.Machine
import Formulary.Proofs.Conversion.Path
import Formulary.Proofs.Evaluation.Outcome
import Formulary.Proofs.Lowering.Operation

namespace Formulary

/-! Two trees that lowering treats alike: it collects the same inputs and functions for them and
    builds nodes that compute the same. Where it fails the messages may differ, since they name
    the trees. -/

/-- Nodes of one type with the same outcome, whatever the inputs are. A constant is equivalent only
    to itself, because lowering looks at constants. -/
structure Node.Equivalent (left right : Node) : Prop where
  ty : left.ty = right.ty
  eval : ∀ calculator call slots parameters,
    left.evalWith calculator call slots parameters =
      right.evalWith calculator call slots parameters
  constants : ∀ value, left = .constant value ↔ right = .constant value

namespace Node.Equivalent

variable {left right : Node}

theorem refl (node : Node) : Equivalent node node := ⟨rfl, fun _ _ _ _ => rfl, fun _ => Iff.rfl⟩

theorem trans {third : Node} (first : Equivalent left right) (second : Equivalent right third) :
    Equivalent left third where
  ty := first.ty.trans second.ty
  eval calculator call slots parameters :=
    (first.eval calculator call slots parameters).trans
      (second.eval calculator call slots parameters)
  constants value := (first.constants value).trans (second.constants value)

theorem convert (step : Step) (same : Equivalent left right) :
    Equivalent (.convert step left) (.convert step right) where
  ty := rfl
  eval calculator call slots parameters := by simp only [evalWith, same.eval]
  constants := by simp

theorem converted (path : Path) (same : Equivalent left right) :
    Equivalent (left.converted path) (right.converted path) := by
  induction path generalizing left right with
  | nil => exact same
  | cons step path ih => exact ih (same.convert step)

theorem guard (restriction : String) (condition : Node) (same : Equivalent left right) :
    Equivalent (.guard restriction condition left) (.guard restriction condition right) where
  ty := same.ty
  eval calculator call slots parameters := by simp only [evalWith, same.eval]
  constants := by simp

theorem logic {left' right' : Node} (op : Operator) (first : Equivalent left left')
    (second : Equivalent right right') :
    Equivalent (.logic op left right) (.logic op left' right') where
  ty := rfl
  eval calculator call slots parameters := by simp only [evalWith, first.eval, second.eval]
  constants := by simp

theorem coerce (same : Equivalent left right) (catalog : Catalog) (target : Ty) :
    Matches Equivalent (fun _ _ => True) (catalog.coerce left target)
      (catalog.coerce right target) := by
  by_cases constant : ∃ value, left = .constant value
  · obtain ⟨value, rfl⟩ := constant
    rw [(same.constants value).mp rfl]
    cases catalog.coerce (.constant value) target with
    | ok node => exact refl node
    | error => trivial
  · -- Nodes other than constants are converted step by step, along one path.
    have other : ¬ ∃ value, right = .constant value := fun ⟨value, equal⟩ =>
      constant ⟨value, (same.constants value).mpr equal⟩
    unfold Catalog.coerce
    rw [same.ty]
    split
    · exact same
    · split
      · trivial
      · split
        · exact absurd ⟨_, rfl⟩ constant
        · split
          · exact absurd ⟨_, rfl⟩ other
          · exact same.converted _

theorem materialize (same : Equivalent left right) (catalog : Catalog) (hint : Option Ty) :
    Matches Equivalent (fun _ _ => True) (catalog.materialize hint left)
      (catalog.materialize hint right) := by
  unfold Catalog.materialize
  split
  · exact same
  · exact same.coerce catalog _

end Node.Equivalent

namespace LowerM

variable {α β γ δ : Type} {state : LowerState}

theorem liftM_ok (value : α) :
    (liftM (Except.ok value : Except CompileError α) : LowerM α) = pure value := rfl

/-- From a state the actions come to one state, and they both fail or have related results. -/
def Alike (state : LowerState) (related : α → β → Prop) (left : LowerM α) (right : LowerM β) :
    Prop :=
  (left state).2 = (right state).2 ∧
    Matches related (fun _ _ => True) (left state).1 (right state).1

namespace Alike

variable {related : α → β → Prop} {left : LowerM α} {right : LowerM β}

theorem refl (action : LowerM α) : Alike state Eq action action := by
  refine ⟨rfl, ?_⟩
  cases (action state).1 <;> trivial

theorem of_run {left right : LowerM α} {a : α} {after : LowerState}
    (alike : Alike state Eq left right) (run : right state = (.ok a, after)) :
    left state = (.ok a, after) := by
  obtain ⟨same, matched⟩ := alike
  rw [run] at same matched
  obtain ⟨_, done, rfl⟩ := matched.symm.of_ok rfl
  exact Prod.ext done same

theorem mono {related' : α → β → Prop} (alike : Alike state related left right)
    (weaker : ∀ a b, related a b → related' a b) : Alike state related' left right := by
  obtain ⟨same, matched⟩ := alike
  refine ⟨same, ?_⟩
  cases run : (left state).1 <;> cases run' : (right state).1 <;> rw [run, run'] at matched
  case ok.ok a b => exact weaker a b matched
  all_goals exact matched

theorem congr {left' : LowerM α} {right' : LowerM β} (lefts : Alike state Eq left left')
    (rights : Alike state Eq right right') (alike : Alike state related left' right') :
    Alike state related left right := by
  have matched := lefts.2.trans (alike.2.trans rights.2.symm
    (fun a b c (holds : related a b) (same : c = b) => same.symm ▸ holds) fun _ _ _ _ _ => trivial)
    (fun a b c (same : a = b) (holds : related b c) => same.symm ▸ holds) fun _ _ _ _ _ => trivial
  exact ⟨lefts.1.trans (alike.1.trans rights.1.symm), matched⟩

theorem pure {a : α} {b : β} (holds : related a b) :
    Alike state related (Pure.pure a) (Pure.pure b) := ⟨rfl, holds⟩

theorem throw (error error' : CompileError) :
    Alike state related (MonadExcept.throw error) (MonadExcept.throw error') := ⟨rfl, trivial⟩

theorem lift {value : Except CompileError α} {value' : Except CompileError β}
    (matched : Matches related (fun _ _ => True) value value') :
    Alike state related (liftM value : LowerM α) (liftM value' : LowerM β) := ⟨rfl, matched⟩

/-- What follows has to be alike only where the first action can lead. -/
theorem bind_of_run {next : α → LowerM γ} {next' : β → LowerM δ} {last : γ → δ → Prop}
    (first : Alike state related left right)
    (continued : ∀ after a b, left state = (.ok a, after) → related a b →
      Alike after last (next a) (next' b)) :
    Alike state last (left >>= next) (right >>= next') := by
  obtain ⟨same, matched⟩ := first
  rw [Alike, bind_apply, bind_apply]
  rcases run : left state with ⟨_ | a, after⟩ <;> rcases run' : right state with ⟨_ | b, after'⟩ <;>
    simp only [run, run', Matches] at same matched
  · exact ⟨same, trivial⟩
  · subst same
    exact continued after a b run matched

theorem bind {next : α → LowerM γ} {next' : β → LowerM δ} {last : γ → δ → Prop}
    (first : Alike state related left right)
    (continued : ∀ after a b, related a b → Alike after last (next a) (next' b)) :
    Alike state last (left >>= next) (right >>= next') :=
  first.bind_of_run fun after a b _ => continued after a b

theorem bind_same {left right : LowerM α} {next : α → LowerM γ} {next' : α → LowerM δ}
    {last : γ → δ → Prop} (first : Alike state Eq left right)
    (continued : ∀ after a, Alike after last (next a) (next' a)) :
    Alike state last (left >>= next) (right >>= next') :=
  first.bind fun after a _ same => same ▸ continued after a

theorem andThen (action : LowerM α) {next : α → LowerM γ} {next' : α → LowerM δ}
    {last : γ → δ → Prop} (continued : ∀ after a, Alike after last (next a) (next' a)) :
    Alike state last (action >>= next) (action >>= next') :=
  (refl action).bind_same continued

theorem locating (expr expr' : Expr) (span span' : Option Span)
    (alike : Alike state related left right) :
    Alike state related (LowerM.locating expr span left) (LowerM.locating expr' span' right) := by
  obtain ⟨same, matched⟩ := alike
  rw [Alike, locating_apply, locating_apply]
  refine ⟨same, ?_⟩
  cases run : (left state).1 <;> cases run' : (right state).1 <;> rw [run, run'] at matched <;>
    exact matched

theorem located (expr : Expr) (span : Option Span) (action : LowerM α) :
    Alike state Eq (LowerM.locating expr span action) action := by
  rw [Alike, locating_apply]
  refine ⟨rfl, ?_⟩
  cases (action state).1 <;> trivial

theorem attempt (alike : Alike state related left right) :
    Alike state (Matches related fun _ _ => True) (LowerM.attempt left)
      (LowerM.attempt right) := alike

theorem mapM {f : α → LowerM γ} {g : β → LowerM δ} {result : γ → δ → Prop} {lefts : List α}
    {rights : List β}
    (all : List.Forall₂ (fun a b => ∀ state, Alike state result (f a) (g b)) lefts rights) :
    Alike state (List.Forall₂ result) (lefts.mapM f) (rights.mapM g) := by
  induction all generalizing state with
  | nil => exact .pure .nil
  | cons first _ ih =>
    rw [List.mapM_cons, List.mapM_cons]
    refine (first state).bind fun _ c d head => ?_
    exact ih.bind fun _ cs ds tail => .pure (.cons head tail)

theorem mapM_same {f : α → LowerM γ} {g : β → LowerM γ} {lefts : List α} {rights : List β}
    (all : List.Forall₂ (fun a b => ∀ state, Alike state Eq (f a) (g b)) lefts rights) :
    Alike state Eq (lefts.mapM f) (rights.mapM g) := by
  rw [← List.forall₂_eq_eq_eq]
  exact .mapM all

end Alike

end LowerM

namespace Operand

variable {left right : Operand} {lefts rights : List Operand} {state : LowerState}

/-- Operands that are lowered alike from every state. -/
def Alike (left right : Operand) : Prop :=
  ∀ state hint, LowerM.Alike state Eq (left.lower hint) (right.lower hint)

theorem Alike.refl (operand : Operand) : operand.Alike operand := fun _ _ => .refl _

theorem lowerAs_alike (alike : left.Alike right) (catalog : Catalog) (type : Ty) :
    LowerM.Alike state Eq (left.lowerAs catalog type) (right.lowerAs catalog type) :=
  (alike state _).bind_same fun _ _ => .locating _ _ _ _ (.refl _)

theorem lowerRest_alike (catalog : Catalog) (type : Ty) (all : List.Forall₂ Alike lefts rights)
    (nodes : List Node) :
    LowerM.Alike state Eq (lowerRest catalog type lefts nodes)
      (lowerRest catalog type rights nodes) := by
  induction all generalizing state nodes with
  | nil => exact .refl _
  | @cons left right lefts rights first _ ih =>
    cases nodes with
    | nil => exact .refl _
    | cons node nodes =>
      have others : ∀ after head, LowerM.Alike after Eq
          (do return head :: (← lowerRest catalog type lefts nodes))
          (do return head :: (← lowerRest catalog type rights nodes)) := by
        intro after head
        exact (ih nodes).bind_same fun _ _ => .refl _
      rw [lowerRest, lowerRest]
      split
      · exact others state node
      · exact (lowerAs_alike first catalog type).bind_same others

theorem unify_alike (catalog : Catalog) (all : List.Forall₂ Alike lefts rights)
    (nodes : List Node) :
    LowerM.Alike state Eq (unify catalog lefts nodes) (unify catalog rights nodes) := by
  unfold unify
  split
  · exact .throw _ _
  · split
    · exact .refl _
    · refine .andThen _ fun after widest => ?_
      exact (lowerRest_alike catalog widest all _).bind_same fun _ _ => .refl _

theorem lowerAll_alike (hint : Option Ty) (all : List.Forall₂ Alike lefts rights) :
    LowerM.Alike state Eq (lowerAll hint lefts) (lowerAll hint rights) :=
  .mapM_same (all.imp fun _ _ alike state => alike state hint)

/-- Operands that are lowered alike and are the same literal exponent, if they are one. -/
structure Akin (left right : Operand) : Prop where
  alike : left.Alike right
  literal : PowerStrategy.integerLiteral? left.expr = PowerStrategy.integerLiteral? right.expr

theorem Akin.refl (operand : Operand) : operand.Akin operand := ⟨.refl operand, rfl⟩

end Operand

namespace PowerStrategy

variable {base base' exponent exponent' : Operand} {state : LowerState}

/-! The base of a power may be replaced by one that is lowered alike. For exponents this is not
    enough: a literal exponent is recognised by its tree. -/

theorem lower_alike {strategy : PowerStrategy} (regular : strategy.isCustom = false)
    (bases : base.Alike base') (exponents : exponent.Akin exponent') (catalog : Catalog)
    (hint : Option Ty) :
    LowerM.Alike state Eq (strategy.lower catalog hint base exponent)
      (strategy.lower catalog hint base' exponent') := by
  cases strategy with
  | integerExponent =>
    simp only [lower, lowerIntegerExponent, exponents.literal]
    split
    · exact .refl _
    · exact (bases state _).bind_same fun _ _ => .refl _
  | sameType =>
    refine (bases state _).bind_same fun after node => ?_
    exact (exponents.alike after _).bind_same fun _ _ => .refl _
  | widestType =>
    have operands : List.Forall₂ Operand.Alike [base, exponent] [base', exponent'] :=
      .cons bases (.cons exponents.alike .nil)
    refine (Operand.lowerAll_alike _ operands).bind_same fun after nodes => ?_
    exact (Operand.unify_alike catalog operands nodes).bind_same fun _ _ => .refl _
  | custom name lower => cases regular

theorem tryAll_alike {strategies : List PowerStrategy}
    (regular : ∀ strategy ∈ strategies, strategy.isCustom = false) (bases : base.Alike base')
    (exponents : exponent.Akin exponent') (catalog : Catalog) (hint : Option Ty)
    (failure failure' : CompileError) :
    LowerM.Alike state Eq (tryAll catalog hint base exponent failure strategies)
      (tryAll catalog hint base' exponent' failure' strategies) := by
  induction strategies generalizing state failure failure' with
  | nil => exact .throw _ _
  | cons strategy rest ih =>
    have others := fun other member => regular other (List.mem_cons_of_mem _ member)
    refine (lower_alike (regular strategy List.mem_cons_self) bases exponents catalog
      hint).attempt.bind fun after outcome outcome' matched => ?_
    match outcome, outcome', matched with
    | .ok (some node), .ok _, rfl => exact .refl _
    | .ok none, .ok _, rfl => exact ih others failure failure'
    | .error error, .error error', _ => exact ih others error error'

end PowerStrategy

end Formulary
