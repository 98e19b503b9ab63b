import Mathlib.Order.CompleteBooleanAlgebra
import Mathlib.Order.CompletePartialOrder
import Formulary.Proofs.Expr.Scalar
import Formulary.Proofs.Lowering.Termination
import Formulary.Proofs.Program.Typed
import Formulary.Proofs.Semantics.Operation

namespace Formulary

/-! Operations on numbers and truth values can always be lowered: the standard catalog converts
    between all of these types, so operands that have them are brought to one type. -/

theorem Ty.isScalar_of_isNumeric {type : Ty} (numeric : type.isNumeric) : type.isScalar := by
  rw [isScalar, numeric, Bool.or_true]

theorem Ty.isNumeric_of_isScalar {type : Ty} (scalar : type.isScalar) (other : type ≠ .bool) :
    type.isNumeric := by
  rw [isScalar, Bool.or_eq_true, decide_eq_true_eq] at scalar
  exact scalar.resolve_left other

theorem Ty.width_bool_lt {type : Ty} (numeric : type.isNumeric) : Ty.bool.width < type.width := by
  cases type <;> first | decide | cases numeric

def Ty.numbers : List Ty := [.int32, .int64, .float32, .float64, .decimal]

theorem Ty.mem_numbers {type : Ty} : type ∈ numbers ↔ type.isNumeric := by
  cases type <;> simp [numbers, isNumeric]

namespace Catalog

theorem exists_path_of_scalar {source target : Ty} (given : source.isScalar)
    (wanted : target.isScalar) : ∃ path, standard.path? source target = some path := by
  have all : ∀ source ∈ Ty.bool :: Ty.numbers, ∀ target ∈ Ty.bool :: Ty.numbers,
      (standard.path? source target).isSome := by decide +kernel
  have listed : ∀ type : Ty, type.isScalar → type ∈ Ty.bool :: Ty.numbers := by
    intro type scalar
    by_cases truth : type = .bool
    · simp [truth]
    · exact List.mem_cons_of_mem _ (Ty.mem_numbers.mpr (Ty.isNumeric_of_isScalar scalar truth))
  exact Option.isSome_iff_exists.mp (all source (listed source given) target (listed target wanted))

theorem standard_typed : ({} : Compiler).Typed where
  flat := by
    intro declaration listed
    rw [List.mem_singleton.mp listed]
  conversions := fun _ listed _ _ _ applied => (standard_conversion_typed listed applied).1
  converted := by
    intro conversion listed value result _ applied
    obtain ⟨same, numeric⟩ := standard_conversion_typed listed applied
    exact .of_numeric (same ▸ numeric)
  hosts := by
    intro function registered
    simp [Builtin.defaults, MathFunction.all] at registered

theorem coerce_scalar {node : Node} {type : Ty} (given : node.ty.isScalar)
    (wanted : type.isScalar) : ∃ result, standard.coerce node type = .ok result ∧ result.ty = type := by
  have succeeds : ∃ result, standard.coerce node type = .ok result := by
    obtain ⟨path, found⟩ := exists_path_of_scalar given wanted
    rw [coerce, found]
    dsimp only
    split
    · exact ⟨_, rfl⟩
    · split
      · split <;> exact ⟨_, rfl⟩
      · exact ⟨_, rfl⟩
  obtain ⟨result, coerced⟩ := succeeds
  exact ⟨result, coerced, Fits.ty_eq standard_typed (.of_coerce coerced)⟩

theorem numeric_scalar {node : Node} (given : node.ty.isScalar) (hint : Option Ty) :
    ∃ result, standard.numeric hint node = .ok result ∧ result.ty.isNumeric := by
  rw [numeric]
  split
  · exact ⟨node, rfl, ‹_›⟩
  · split
    · obtain ⟨result, coerced, same⟩ :=
        coerce_scalar given (Ty.isScalar_of_isNumeric (isNumeric_numericHint hint))
      exact ⟨result, coerced, same ▸ isNumeric_numericHint hint⟩
    · rename_i other truth
      exact absurd (Ty.isNumeric_of_isScalar given truth) other

theorem materialize_scalar {node : Node} (given : node.ty = .bool) (hint : Option Ty) :
    ∃ result, standard.materialize hint node = .ok result ∧ result.ty.isScalar ∧
      (hint ≠ some .bool → result.ty.isNumeric) := by
  unfold materialize
  split
  · exact ⟨node, rfl, given ▸ rfl, fun other => absurd rfl other⟩
  · have wanted := isNumeric_numericHint hint
    obtain ⟨result, coerced, same⟩ :=
      coerce_scalar (by rw [given]; rfl : node.ty.isScalar) (Ty.isScalar_of_isNumeric wanted)
    rw [← same] at wanted
    exact ⟨result, coerced, Ty.isScalar_of_isNumeric wanted, fun _ => wanted⟩

theorem widest?_scalar {types : List Ty} (some_ : types ≠ [])
    (scalar : ∀ type ∈ types, type.isScalar) :
    ∃ widest ∈ types, standard.widest? types = some widest ∧
      ∀ type ∈ types, type.width ≤ widest.width := by
  have sorted := pairwise_byWidth types
  have same : ∀ type, type ∈ byWidth types ↔ type ∈ types := fun type => mem_byWidth
  cases order : byWidth types with
  | nil =>
    obtain ⟨type, member⟩ := List.exists_mem_of_ne_nil types some_
    have listed := (same type).mpr member
    rw [order] at listed
    cases listed
  | cons widest rest =>
    rw [order] at sorted same
    have listed : widest ∈ types := (same widest).mp List.mem_cons_self
    refine ⟨widest, listed, ?_, fun type member => ?_⟩
    · rw [widest?, order, List.find?_cons_of_pos]
      rw [List.all_eq_true]
      intro type member
      obtain ⟨path, found⟩ := exists_path_of_scalar (scalar type member) (scalar widest listed)
      rw [converts, found]
      rfl
    · rcases List.mem_cons.mp ((same type).mpr member) with rfl | later
      · exact Nat.le_refl _
      · exact List.rel_of_pairwise_cons sorted later

end Catalog

/-- Started where all functions return numbers, the action gives a result with the property, and
    its functions return numbers too. -/
abbrev LowerM.Succeeds {α : Type} (action : LowerM α) (result : α → Prop) : Prop :=
  LowerM.Keeps (fun (_ : Unit) state => state.Sound Ty.numbers) () action (fun _ => result) False

theorem LowerM.Keeps.of_ok {W α : Type} [Preorder W] {describes : W → LowerState → Prop} {world : W}
    {value : Except CompileError α} {result : W → α → Prop} {failure : Prop}
    (succeeds : ∃ a, value = .ok a ∧ result world a) :
    LowerM.Keeps describes world (liftM value) result failure := by
  obtain ⟨a, rfl, holds⟩ := succeeds
  exact .pure holds

theorem LowerM.Succeeds.mapM {α β : Type} {items : List α} {action : α → LowerM β}
    (result : β → Prop) (each : ∀ item ∈ items, LowerM.Succeeds (action item) result) :
    LowerM.Succeeds (items.mapM action)
      fun values => values.length = items.length ∧ ∀ value ∈ values, result value :=
  .mapM_all (fun _ => result) (fun _ => id) fun item member _ _ => each item member

namespace Place

/-- Hints under which a tree at the place is lowered: truth values are only hinted at conditions. -/
structure Suits (place : Place) (hint : Option Ty) : Prop where
  scalar : ∀ type ∈ hint, type.isScalar
  truth : place ≠ .condition → hint ≠ some .bool

/-- Types of the nodes to which a tree at the place is lowered. -/
structure Admits (place : Place) (type : Ty) : Prop where
  scalar : type.isScalar
  number : place = .number → type.isNumeric

variable {place : Place} {type : Ty} {hint : Option Ty}

theorem Suits.none : place.Suits none := ⟨nofun, nofun⟩

theorem Suits.of_numeric (numeric : type.isNumeric) : place.Suits (some type) := by
  refine ⟨fun other member => ?_, fun _ same => ?_⟩
  · cases Option.mem_def.mp member
    exact Ty.isScalar_of_isNumeric numeric
  · cases same
    cases numeric

theorem Suits.numericHint (hint : Option Ty) : place.Suits (numericHint hint) := by
  cases kept : Formulary.numericHint hint with
  | none => exact .none
  | some type => exact .of_numeric (Option.filter_eq_some_iff.mp kept).2

theorem Suits.condition : Place.condition.Suits (some .bool) := by
  refine ⟨fun type member => ?_, fun away => absurd rfl away⟩
  cases Option.mem_def.mp member
  rfl

theorem Admits.of_numeric (numeric : type.isNumeric) : place.Admits type :=
  ⟨Ty.isScalar_of_isNumeric numeric, fun _ => numeric⟩

end Place

theorem coerce_succeeds {node : Node} {type : Ty} (given : node.ty.isScalar)
    (wanted : type.isScalar) :
    LowerM.Succeeds (liftM (Catalog.standard.coerce node type)) fun result => result.ty = type :=
  .of_ok (Catalog.coerce_scalar given wanted)

namespace Operand

open Catalog (standard)

variable {place : Place} {operand : Operand} {operands : List Operand}

/-- Under every hint that suits the place, the operand is lowered to a type the place admits. -/
def Lowers (place : Place) (operand : Operand) : Prop :=
  ∀ hint, place.Suits hint →
    LowerM.Succeeds (operand.lower hint) fun node => place.Admits node.ty

theorem Lowers.lowerAs {type : Ty} (lowers : operand.Lowers place) (suits : place.Suits (some type)) :
    LowerM.Succeeds (operand.lowerAs standard type) fun node => node.ty = type :=
  .bind (lowers _ suits) fun _ _ _ admitted =>
    .locating (coerce_succeeds admitted.scalar (suits.scalar type rfl))

theorem lowerRest_succeeds {type : Ty} {nodes : List Node}
    (lowers : ∀ operand ∈ operands, operand.Lowers place) (suits : place.Suits (some type))
    (lengths : operands.length = nodes.length) :
    LowerM.Succeeds (lowerRest standard type operands nodes)
      fun result => result.length = nodes.length ∧ ∀ node ∈ result, node.ty = type := by
  induction operands generalizing nodes with
  | nil =>
    obtain rfl : nodes = [] := List.length_eq_zero_iff.mp lengths.symm
    exact .pure ⟨rfl, fun _ member => nomatch member⟩
  | cons operand operands ih =>
    cases nodes with
    | nil => cases lengths
    | cons node nodes =>
      have continued : ∀ head : Node, head.ty = type → LowerM.Succeeds
          (do return head :: (← lowerRest standard type operands nodes))
          fun result => result.length = (node :: nodes).length ∧
            ∀ node ∈ result, node.ty = type := by
        intro head same
        refine .bind (ih (fun other member => lowers other (List.mem_cons_of_mem _ member))
          (Nat.succ.inj lengths)) fun _ _ rest brought => ?_
        refine .pure ⟨by rw [List.length_cons, brought.1, List.length_cons], ?_⟩
        intro other member
        rcases List.mem_cons.mp member with rfl | member
        · exact same
        · exact brought.2 other member
      rw [lowerRest]
      split
      · exact continued node ‹_›
      · exact .bind ((lowers operand List.mem_cons_self).lowerAs suits)
          fun _ _ head same => continued head same

theorem unify_succeeds {nodes : List Node} {kind : Place}
    (lowers : ∀ operand ∈ operands, operand.Lowers place)
    (admitted : ∀ node ∈ nodes, kind.Admits node.ty) (lengths : operands.length = nodes.length)
    (some_ : nodes ≠ []) :
    LowerM.Succeeds (unify standard operands nodes)
      fun result => result.1.length = nodes.length ∧ (∀ node ∈ result.1, node.ty = result.2) ∧
        kind.Admits result.2 := by
  cases nodes with
  | nil => exact absurd rfl some_
  | cons first rest =>
    rw [unify]
    split
    · rename_i agree
      have same : ∀ node ∈ first :: rest, node.ty = first.ty := by
        simpa [List.all_eq_true] using agree
      exact .pure ⟨rfl, same, admitted first List.mem_cons_self⟩
    · rename_i differ
      have types : ∀ type ∈ (first :: rest).map Node.ty, type.isScalar := by
        intro type member
        obtain ⟨node, listed, rfl⟩ := List.mem_map.mp member
        exact (admitted node listed).scalar
      obtain ⟨widest, listed, found, wider⟩ := Catalog.widest?_scalar (by simp) types
      -- Truth values are the narrowest, so where types differ, the widest is one of numbers.
      have numeric : widest.isNumeric := by
        obtain ⟨node, member, rfl⟩ := List.mem_map.mp listed
        refine Ty.isNumeric_of_isScalar (admitted node member).scalar fun truth => differ ?_
        rw [truth] at wider
        have all : ∀ other ∈ first :: rest, other.ty = .bool := by
          intro other among
          by_contra number
          have wide := Ty.isNumeric_of_isScalar (admitted other among).scalar number
          exact absurd (wider other.ty (List.mem_map_of_mem among))
            (Nat.not_le.mpr (Ty.width_bool_lt wide))
        rw [List.all_eq_true]
        intro other among
        rw [all other among, all first List.mem_cons_self, decide_eq_true rfl]
      have chosen : standard.widestOf (first :: rest) = .ok widest := by
        rw [Catalog.widestOf, found]
      have wide : LowerM.Succeeds (liftM (standard.widestOf (first :: rest)))
          fun type => type = widest := .of_ok ⟨widest, chosen, rfl⟩
      refine .bind wide fun _ _ type same => ?_
      subst same
      refine .bind (lowerRest_succeeds lowers (.of_numeric numeric) lengths)
        fun _ _ result brought => ?_
      exact .pure ⟨brought.1, brought.2, .of_numeric numeric⟩

end Operand

/-- The catalog, the functions and the ways to lower a power that every compiler starts with. -/
structure Compiler.Standard (compiler : Compiler) : Prop where
  catalog : compiler.catalog = Catalog.standard
  builtins : compiler.builtins = Builtin.defaults
  strategies : compiler.strategies = PowerStrategy.defaults

section

open Catalog (standard)

variable {compiler : Compiler} {place : Place} {hint : Option Ty} {operand : Operand}
variable {operands : List Operand}

theorem materialize_succeeds {node : Node} (given : node.ty = .bool) (suits : place.Suits hint) :
    LowerM.Succeeds (liftM (standard.materialize hint node)) fun node => place.Admits node.ty := by
  obtain ⟨result, materialized, scalar, numeric⟩ := Catalog.materialize_scalar given hint
  refine .of_ok ⟨result, materialized, scalar, fun number => numeric (suits.truth ?_)⟩
  rw [number]
  nofun

theorem Operand.Lowers.numeric (lowers : operand.Lowers place) (hint : Option Ty) :
    LowerM.Succeeds (do standard.numeric hint (← operand.lower (numericHint hint)))
      fun node => node.ty.isNumeric :=
  .bind (lowers _ (.numericHint hint)) fun _ _ _ admitted =>
    .of_ok (Catalog.numeric_scalar admitted.scalar hint)

theorem ne_nil_of_length_eq {α β : Type} {items : List α} {others : List β}
    (same : items.length = others.length) (some_ : others ≠ []) : items ≠ [] := by
  rw [← List.length_pos_iff, same]
  exact List.length_pos_iff.mpr some_

theorem foldNodes_succeeds {combine : Node → Node → Node} {nodes : List Node} {type : Ty}
    (some_ : nodes ≠ []) (typed : ∀ node ∈ nodes, node.ty = type)
    (combined : ∀ left right, (combine left right).ty = type) :
    LowerM.Succeeds (foldNodes combine nodes) fun node => node.ty = type := by
  cases nodes with
  | nil => exact absurd rfl some_
  | cons first rest =>
    refine .pure ?_
    cases rest using List.reverseRecOn with
    | nil => exact typed first List.mem_cons_self
    | append_singleton rest last _ =>
      rw [List.foldl_concat]
      exact combined _ _

namespace Compiler

theorem lowerUnary_succeeds (default : compiler.Standard) (lowers : operand.Lowers .scalar)
    (suits : place.Suits hint) (op : UnaryOperator) :
    LowerM.Succeeds (compiler.lowerUnary hint op operand) fun node => place.Admits node.ty := by
  unfold lowerUnary
  rw [default.catalog]
  cases op with
  | negate | factorial =>
    exact .bind (lowers.numeric hint) fun _ _ _ numeric => .pure (.of_numeric numeric)
  | not =>
    refine .bind (lowers none .none) fun _ _ node admitted => ?_
    exact .bind (coerce_succeeds admitted.scalar rfl) fun _ _ _ _ =>
      materialize_succeeds rfl suits

theorem lowerArithmetic_succeeds (default : compiler.Standard) (some_ : operands ≠ [])
    (lowers : ∀ operand ∈ operands, operand.Lowers .scalar) (hint : Option Ty) (op : Operator) :
    LowerM.Succeeds (compiler.lowerArithmetic hint op operands)
      fun node => node.ty.isNumeric := by
  unfold lowerArithmetic
  rw [default.catalog]
  refine .bind (LowerM.Succeeds.mapM (fun node => node.ty.isNumeric) fun operand member => ?_)
    fun _ _ nodes numbers => ?_
  · exact .bind (lowers operand member _ (.numericHint hint)) fun _ _ _ admitted =>
      .locating (.of_ok (Catalog.numeric_scalar admitted.scalar hint))
  · have found := ne_nil_of_length_eq numbers.1 some_
    have admitted : ∀ node ∈ nodes, Place.number.Admits node.ty :=
      fun node member => .of_numeric (numbers.2 node member)
    refine .bind (Operand.unify_succeeds lowers admitted numbers.1.symm found)
      fun _ _ result unified => ?_
    obtain ⟨brought, type⟩ := result
    dsimp only at unified ⊢
    have numeric := unified.2.2.number rfl
    rw [numeric]
    exact .weaken (foldNodes_succeeds (ne_nil_of_length_eq unified.1 found) unified.2.1
      fun _ _ => rfl)
      (fun _ _ _ same => same ▸ numeric) id

theorem lowerComparison_succeeds (default : compiler.Standard) (pair : operands.length = 2)
    (lowers : ∀ operand ∈ operands, operand.Lowers .scalar) (suits : place.Suits hint)
    (op : Operator) :
    LowerM.Succeeds (compiler.lowerComparison hint op operands)
      fun node => place.Admits node.ty := by
  unfold lowerComparison
  rw [default.catalog, pair]
  refine .bind (LowerM.Succeeds.mapM _ fun operand member => lowers operand member none .none)
    fun _ _ nodes admitted => ?_
  have found : nodes ≠ [] := by
    rw [← List.length_pos_iff, admitted.1, pair]
    decide
  refine .bind (Operand.unify_succeeds lowers admitted.2 admitted.1.symm found)
    fun _ _ result unified => ?_
  obtain ⟨brought, type⟩ := result
  dsimp only at unified ⊢
  match brought, unified.1.trans (admitted.1.trans pair) with
  | [left, right], _ =>
    exact materialize_succeeds rfl suits

theorem lowerLogic_succeeds (default : compiler.Standard) (some_ : operands ≠ [])
    (lowers : ∀ operand ∈ operands, operand.Lowers .scalar) (suits : place.Suits hint)
    (op : Operator) :
    LowerM.Succeeds (compiler.lowerLogic hint op operands) fun node => place.Admits node.ty := by
  unfold lowerLogic
  rw [default.catalog]
  refine .bind (LowerM.Succeeds.mapM (fun node => node.ty = .bool) fun operand member => ?_)
    fun _ _ nodes truths => ?_
  · exact .bind (lowers operand member none .none) fun _ _ _ admitted =>
      .locating (coerce_succeeds admitted.scalar rfl)
  · exact .bind (foldNodes_succeeds (ne_nil_of_length_eq truths.1 some_) truths.2 fun _ _ => rfl)
      fun _ _ _ truth => materialize_succeeds truth suits

end Compiler

namespace PowerStrategy

variable {base exponent : Operand}

theorem lowerPower_succeeds (baseLowers : base.Lowers .number)
    (exponentLowers : exponent.Lowers .number) (hint : Option Ty) :
    LowerM.Succeeds (lowerPower defaults standard hint base exponent)
      fun node => node.ty.isNumeric := by
  have lowers : ∀ operand ∈ [base, exponent], operand.Lowers .number := by
    intro operand member
    rcases List.mem_pair.mp member with rfl | rfl
    · exact baseLowers
    · exact exponentLowers
  have literal : LowerM.Keeps (fun (_ : Unit) state => state.Sound Ty.numbers) ()
      (lowerIntegerExponent hint base exponent)
      (fun _ result => ∀ node ∈ result, node.ty.isNumeric) True := by
    unfold lowerIntegerExponent
    split
    · exact .pure nofun
    · refine .bind ((baseLowers _ (.numericHint hint)).weaken (fun _ _ _ admitted => admitted)
        False.elim) fun _ _ node admitted => ?_
      dsimp only
      split
      · exact .pure nofun
      · split
        · refine .pure fun other same => ?_
          cases Option.mem_def.mp same
          exact admitted.number rfl
        · exact .throw trivial
  have same : LowerM.Succeeds (lowerSameType hint base exponent)
      fun result => ∀ node ∈ result, node.ty.isNumeric := by
    refine .bind (baseLowers _ (.numericHint hint)) fun _ _ left admitted => ?_
    refine .bind (exponentLowers _ (.numericHint hint)) fun _ _ right _ => ?_
    split
    · refine .pure fun other same => ?_
      cases Option.mem_def.mp same
      exact admitted.number rfl
    · exact .pure nofun
  have widest : LowerM.Succeeds (lowerWidestType standard hint base exponent)
      fun result => ∃ node, result = some node ∧ node.ty.isNumeric := by
    refine .bind (LowerM.Succeeds.mapM _ fun operand member =>
      lowers operand member _ (.numericHint hint)) fun _ _ nodes admitted => ?_
    have found : nodes ≠ [] := ne_nil_of_length_eq admitted.1 nofun
    refine .bind (Operand.unify_succeeds lowers admitted.2 admitted.1.symm found)
      fun _ _ result unified => ?_
    obtain ⟨brought, type⟩ := result
    dsimp only at unified ⊢
    have numeric := unified.2.2.number rfl
    match brought, unified.1.trans admitted.1 with
    | [left, right], _ =>
      dsimp only
      rw [numeric]
      exact .pure ⟨_, rfl, numeric⟩
  have last : ∀ failure, LowerM.Succeeds
      (tryAll standard hint base exponent failure [widestType]) fun node => node.ty.isNumeric := by
    intro failure
    refine .bind (.attempt widest) fun _ _ outcome settled => ?_
    match outcome, settled with
    | .ok _, ⟨node, rfl, numeric⟩ => exact .pure numeric
  have second : ∀ failure, LowerM.Succeeds
      (tryAll standard hint base exponent failure [sameType, widestType])
      fun node => node.ty.isNumeric := by
    intro failure
    refine .bind (.attempt same) fun _ _ outcome settled => ?_
    match outcome, settled with
    | .ok (some node), numeric => exact .pure (numeric node rfl)
    | .ok none, _ => exact last failure
  refine .bind (.attempt literal) fun _ _ outcome settled => ?_
  match outcome, settled with
  | .ok (some node), numeric => exact .pure (numeric node rfl)
  | .ok none, _ => exact second _
  | .error error, _ => exact second error

theorem chained_lowers (spanOf : Expr → Option Span) (some_ : operands ≠ [])
    (lowers : ∀ operand ∈ operands, operand.Lowers .number) :
    (chained defaults standard spanOf operands).Lowers .number := by
  fun_induction chained defaults standard spanOf operands with
  | case1 => exact absurd rfl some_
  | case2 operand => exact lowers operand (by simp)
  | case3 exponent rest more expr base ih =>
    have inner : base.Lowers .number := ih (fun empty => more (by rw [empty]))
      fun operand member => lowers operand (by simp [member])
    intro hint _
    exact .locating (.weaken (lowerPower_succeeds inner (lowers exponent (by simp)) hint)
      (fun _ _ _ numeric => .of_numeric numeric) id)

end PowerStrategy

namespace Compiler

theorem lowerBinary_succeeds (default : compiler.Standard) (spanOf : Expr → Option Span)
    {op : Operator} (several : 2 ≤ operands.length) (other : op ≠ .power)
    (pair : op.isComparison → operands.length = 2)
    (lowers : ∀ operand ∈ operands, operand.Lowers .scalar) (suits : place.Suits hint) :
    LowerM.Succeeds (compiler.lowerBinary spanOf hint op operands)
      fun node => place.Admits node.ty := by
  have some_ : operands ≠ [] := by
    rw [← List.length_pos_iff]
    omega
  unfold lowerBinary
  split
  · rename_i empty
    exact absurd (List.reverse_eq_nil_iff.mp empty) some_
  · rename_i single
    have one := congrArg List.length single
    rw [List.length_reverse, List.length_singleton] at one
    omega
  · rw [if_neg other]
    split
    · exact lowerComparison_succeeds default (pair ‹_›) lowers suits op
    · split
      · exact lowerLogic_succeeds default some_ lowers suits op
      · exact .weaken (lowerArithmetic_succeeds default some_ lowers hint op)
          (fun _ _ _ numeric => .of_numeric numeric) id

theorem lowerBinary_power_succeeds (default : compiler.Standard) (spanOf : Expr → Option Span)
    (several : 2 ≤ operands.length) (lowers : ∀ operand ∈ operands, operand.Lowers .number)
    (hint : Option Ty) :
    LowerM.Succeeds (compiler.lowerBinary spanOf hint .power operands)
      fun node => node.ty.isNumeric := by
  have reversed : ∀ operand ∈ operands.reverse, operand.Lowers .number :=
    fun operand member => lowers operand (List.mem_reverse.mp member)
  have length : 2 ≤ operands.reverse.length := by rwa [List.length_reverse]
  unfold lowerBinary
  rw [default.catalog, default.strategies]
  match operands.reverse, length, reversed with
  | last :: second :: rest, _, reversed =>
    have base := PowerStrategy.chained_lowers spanOf (List.cons_ne_nil second rest)
      fun operand member => reversed operand (List.mem_cons_of_mem _ member)
    exact PowerStrategy.lowerPower_succeeds base (reversed last List.mem_cons_self) hint

end Compiler

namespace Builtin

theorem lowerCall_succeeds {builtin : Builtin} {name : String} {result : Node → Prop}
    (named : defaults.filter (·.name == name) = [builtin])
    (accepts : builtin.accepts operands.length)
    (lowered : LowerM.Succeeds (builtin.lower standard hint operands)
      fun outcome => ∃ node, outcome = some node ∧ result node) :
    LowerM.Succeeds (lowerCall defaults standard hint name operands) result := by
  have found : [builtin].find? (·.accepts operands.length) = some builtin :=
    List.find?_cons_of_pos accepts
  unfold lowerCall
  dsimp only
  rw [named, found]
  refine .bind lowered fun _ _ outcome made => ?_
  obtain ⟨node, rfl, holds⟩ := made
  exact .pure holds

theorem lowerConditional_succeeds {condition positive negative : Operand}
    (truth : condition.Lowers .condition) (left : positive.Lowers place)
    (right : negative.Lowers place) (suits : place.Suits hint) :
    LowerM.Succeeds (lowerConditional standard hint [condition, positive, negative])
      fun outcome => ∃ node, outcome = some node ∧ place.Admits node.ty := by
  have lowers : ∀ operand ∈ [positive, negative], operand.Lowers place := by
    intro operand member
    rcases List.mem_pair.mp member with rfl | rfl
    · exact left
    · exact right
  refine .bind (truth.lowerAs .condition) fun _ _ test _ => ?_
  refine .bind (LowerM.Succeeds.mapM _ fun operand member => lowers operand member _ suits)
    fun _ _ nodes admitted => ?_
  refine .bind (Operand.unify_succeeds lowers admitted.2 admitted.1.symm
    (ne_nil_of_length_eq admitted.1 nofun)) fun _ _ result unified => ?_
  obtain ⟨brought, type⟩ := result
  dsimp only at unified ⊢
  match brought, unified.1.trans admitted.1 with
  | [first, second], _ => exact .pure ⟨_, rfl, unified.2.2⟩

theorem lowerMath_succeeds {function : MathFunction} (some_ : operands ≠ [])
    (lowers : ∀ operand ∈ operands, operand.Lowers place) (hint : Option Ty) :
    LowerM.Succeeds (lowerMath function standard hint operands)
      fun outcome => ∃ node, outcome = some node ∧ node.ty.isNumeric := by
  have finish : ∀ {arguments : List Node} {type : Ty}, type.isNumeric →
      LowerM.Succeeds
        (if type.isNumeric then return some (Node.native (.math function) type arguments)
          else return none)
        fun outcome => ∃ node, outcome = some node ∧ node.ty.isNumeric := by
    intro arguments type numeric
    rw [if_pos numeric]
    exact .pure ⟨_, rfl, numeric⟩
  unfold lowerMath
  dsimp only
  split
  · refine .bind (LowerM.Succeeds.mapM (fun node => node.ty.isNumeric) fun operand member =>
      (lowers operand member).numeric hint) fun _ _ nodes numbers => ?_
    have admitted : ∀ node ∈ nodes, Place.number.Admits node.ty :=
      fun node member => .of_numeric (numbers.2 node member)
    refine .bind (Operand.unify_succeeds lowers admitted numbers.1.symm
      (ne_nil_of_length_eq numbers.1 some_)) fun _ _ result unified => ?_
    exact finish (unified.2.2.number rfl)
  · have numeric := isNumeric_functionType function hint
    refine .bind (LowerM.Succeeds.mapM (fun node => node.ty = functionType function hint)
      fun operand member => (lowers operand member).lowerAs (.of_numeric numeric))
      fun _ _ nodes _ => ?_
    exact finish numeric

theorem lowerCall_math_succeeds {function : MathFunction}
    (arity : operands.length = function.arity)
    (lowers : ∀ operand ∈ operands, operand.Lowers place) (hint : Option Ty) :
    LowerM.Succeeds (lowerCall defaults standard hint function.name operands)
      fun node => node.ty.isNumeric := by
  have some_ : operands ≠ [] := by
    rintro rfl
    cases function <;> cases arity
  exact lowerCall_succeeds (filter_defaults function) (by simp [accepts, Builtin.arity, arity])
    (lowerMath_succeeds some_ lowers hint)

theorem lowerCall_if_succeeds {condition positive negative : Operand}
    (truth : condition.Lowers .condition) (left : positive.Lowers place)
    (right : negative.Lowers place) (suits : place.Suits hint) :
    LowerM.Succeeds (lowerCall defaults standard hint "if" [condition, positive, negative])
      fun node => place.Admits node.ty := by
  have named : defaults.filter (·.name == "if") = [conditional] := rfl
  exact lowerCall_succeeds named rfl (lowerConditional_succeeds truth left right suits)

end Builtin

end

end Formulary
