import Formulary.Proofs.Conversion.Path
import Formulary.Proofs.Conversion.Search
import Formulary.Proofs.Lowering.Operation
import Formulary.Proofs.Lowering.Settle

namespace Formulary

variable {compiler : Compiler} {state : LowerState} {hint : Option Ty}

/-! Lowering gives nodes of finitely many types: those of this library, those of inputs and
    members, and those that conversions and functions of the host are declared with. A conversion
    of a constant is run at once and may give a value of any type, so what is said below about
    the operands of a node is less than what is said about the node. -/

namespace Compiler

theorem inPlay_of_isNumeric {type : Ty} (numeric : type.isNumeric) :
    type ∈ compiler.typesInPlay := by
  cases type <;> simp_all [typesInPlay, Ty.isNumeric]

theorem inPlay_bool : .bool ∈ compiler.typesInPlay := by simp [typesInPlay]

theorem inPlay_text : .text ∈ compiler.typesInPlay := by simp [typesInPlay]

theorem inPlay_expectReturn : compiler.options.expectReturn ∈ compiler.typesInPlay := by
  simp [typesInPlay]

theorem inPlay_input {name : String} {type : Ty}
    (declared : compiler.options.inputs.get? name = some type) : type ∈ compiler.typesInPlay := by
  have listed : type ∈ compiler.options.inputs.map (·.2) :=
    List.mem_map.mpr ⟨_, mem_of_lookup_eq_some declared, rfl⟩
  simp only [typesInPlay, List.mem_append]
  exact .inl (.inl (.inl (.inr listed)))

theorem inPlay_conversion {conversion : Conversion}
    (listed : conversion ∈ compiler.catalog.conversions) :
    conversion.target ∈ compiler.typesInPlay := by
  simp only [typesInPlay, List.mem_append]
  exact .inl (.inr (List.mem_map_of_mem listed))

theorem inPlay_builtin {builtin : Builtin} {type : Ty} (registered : builtin ∈ compiler.builtins)
    (listed : type ∈ builtin.types) : type ∈ compiler.typesInPlay := by
  simp only [typesInPlay, List.mem_append]
  exact .inr (List.mem_flatMap.mpr ⟨builtin, registered, listed⟩)

theorem inPlay_member {type member : Ty} {name : String}
    (declared : compiler.catalog.memberType? type name = some member) :
    member ∈ compiler.typesInPlay := by
  have listed : member ∈ compiler.catalog.declarations.flatMap
      fun declaration => declaration.members.map (·.2) := by
    rw [Catalog.memberType?] at declared
    generalize compiler.catalog.declarations.length = steps at declared
    induction steps generalizing type with
    | zero => cases declared
    | succ steps ih =>
      obtain ⟨declaration, found, declared⟩ := Option.bind_eq_some_iff.mp declared
      split at declared
      · rename_i own
        cases declared
        have entry := List.mem_map_of_mem (f := Prod.snd) (mem_of_lookup_eq_some own)
        exact List.mem_flatMap.mpr ⟨declaration, List.mem_of_find?_eq_some found, entry⟩
      · obtain ⟨parent, -, inherited⟩ := Option.bind_eq_some_iff.mp declared
        exact ih inherited
  simp only [typesInPlay, List.mem_append]
  exact .inl (.inl (.inr listed))

/-- The hint, if there is one, is a type in play. -/
def Hints (compiler : Compiler) (hint : Option Ty) : Prop :=
  ∀ type ∈ hint, type ∈ compiler.typesInPlay

theorem Hints.none : compiler.Hints none := fun _ member => nomatch member

theorem Hints.some {type : Ty} (known : type ∈ compiler.typesInPlay) : compiler.Hints (some type) :=
  fun _ member => Option.mem_some_iff.mp member ▸ known

theorem Hints.numericHint (hint : Option Ty) : compiler.Hints (numericHint hint) :=
  fun _ member => inPlay_of_isNumeric (Option.filter_eq_some_iff.mp member).2

theorem Hints.getD (hints : compiler.Hints hint) {type : Ty} (known : type ∈ compiler.typesInPlay) :
    hint.getD type ∈ compiler.typesInPlay := by
  cases hint with
  | none => exact known
  | some type => exact hints type rfl

/-- A node under a hint. Only where a truth value is wanted can a literal become one. -/
structure InPlay (compiler : Compiler) (hint : Option Ty) (node : Node) : Prop where
  known : node.ty ∈ compiler.typesInPlay
  truth : ∀ value, node = .constant (.bool value) → hint = some .bool

/-- A node that is not a constant. -/
structure Compound (compiler : Compiler) (node : Node) : Prop where
  known : node.ty ∈ compiler.typesInPlay
  compound : ∀ value, node ≠ .constant value

theorem Compound.inPlay {node : Node} (compound : compiler.Compound node) :
    compiler.InPlay hint node :=
  ⟨compound.known, fun _ same => absurd same (compound.compound _)⟩

theorem Compound.converted {node : Node} {path : Path} {target : Ty}
    (compound : compiler.Compound node) (leads : Path.Leads compiler.catalog node.ty path target) :
    compiler.Compound (node.converted path) := by
  generalize start : node.ty = source at leads
  induction leads generalizing node with
  | done below => exact compound
  | @step _ _ step _ _ offered _ ih =>
    have known : step.target ∈ compiler.typesInPlay := by
      cases offered with
      | cast _ toNumber =>
        refine inPlay_of_isNumeric ?_
        simp only [Step.target]
        cases ‹Ty› <;> simp_all [Ty.isPrimitiveNumeric, Ty.isNumeric]
      | declared listed => exact inPlay_conversion listed
      | nonzero _ => exact inPlay_bool
      | select number => exact inPlay_of_isNumeric number
    exact ih ⟨known, fun value => nofun⟩ rfl

theorem Compound.coerce {source node : Node} {type : Ty} (compound : compiler.Compound source)
    (coerced : compiler.catalog.coerce source type = .ok node) : compiler.Compound node := by
  rcases Catalog.coerce_cases coerced with ⟨rfl, -⟩ | ⟨path, found, rfl | ⟨value, _, rfl, -⟩⟩
  · exact compound
  · exact compound.converted (Catalog.path?_leads found)
  · exact absurd rfl (compound.compound value)

end Compiler

namespace Catalog

variable {catalog : Catalog} {types : List Ty}

theorem coerce_error {node : Node} {target : Ty} {error : CompileError}
    (failed : catalog.coerce node target = .error error) : error.cause ≠ .unfinished := by
  rw [coerce] at failed
  split at failed
  · cases failed
  · split at failed
    · cases failed
      nofun
    · split at failed
      · split at failed <;> cases failed
      · cases failed

theorem coerce_settles (node : Node) (type : Ty) :
    LowerM.Settles types state (liftM (catalog.coerce node type)) (liftM (catalog.coerce node type))
      fun _ => True :=
  .lift (fun _ _ => trivial) fun _ => coerce_error

theorem widestOf_settles (nodes : List Node) :
    LowerM.Settles types state (liftM (catalog.widestOf nodes)) (liftM (catalog.widestOf nodes))
      fun type => ∃ node ∈ nodes, node.ty = type := by
  refine .lift (fun type found => ?_) fun error failed => ?_
  · rw [widestOf] at found
    split at found
    · rename_i widest chosen
      cases found
      rw [widest?] at chosen
      exact List.mem_map.mp (mem_byWidth.mp (List.mem_of_find?_eq_some chosen))
    · cases found
  · rw [widestOf] at failed
    split at failed
    · cases failed
    · cases failed
      nofun

end Catalog

theorem Compiler.materialize_settles {node : Node} (compound : compiler.Compound node)
    (hint : Option Ty) :
    LowerM.Settles compiler.typesInPlay state (liftM (compiler.catalog.materialize hint node))
      (liftM (compiler.catalog.materialize hint node)) (compiler.InPlay hint) := by
  refine .lift (fun result materialized => ?_) fun error failed => ?_
  · unfold Catalog.materialize at materialized
    split at materialized
    · cases materialized
      exact compound.inPlay
    · exact (compound.coerce materialized).inPlay
  · unfold Catalog.materialize at failed
    split at failed
    · cases failed
    · exact Catalog.coerce_error failed

/-- Under a numeric hint no constant is a truth value, so none is converted here. -/
theorem Compiler.numeric_settles {node : Node} (inPlay : compiler.InPlay (numericHint hint) node) :
    LowerM.Settles compiler.typesInPlay state (liftM (compiler.catalog.numeric hint node))
      (liftM (compiler.catalog.numeric hint node)) fun node => node.ty ∈ compiler.typesInPlay := by
  refine .lift (fun result number => ?_) fun error failed => ?_
  · rw [Catalog.numeric] at number
    split at number
    · cases number
      exact inPlay.known
    · split at number
      · rename_i truth
        have compound : compiler.Compound node := by
          refine ⟨inPlay.known, fun value same => ?_⟩
          subst same
          cases value <;> simp only [Node.ty, Value.ty, reduceCtorEq] at truth
          have wanted := inPlay.truth _ rfl
          exact absurd (Option.filter_eq_some_iff.mp wanted).2 (by simp [Ty.isNumeric])
        exact (compound.coerce number).known
      · cases number
  · rw [Catalog.numeric] at failed
    split at failed
    · cases failed
    · split at failed
      · exact Catalog.coerce_error failed
      · cases failed
        nofun

/-! Two operands for the same part of a formula, which are lowered alike from now on. -/

structure Operand.Agree (compiler : Compiler) (state : LowerState) (left right : Operand) :
    Prop where
  expr : right.expr = left.expr
  span : right.span = left.span
  lower : ∀ later, state.Extends later → ∀ hint, compiler.Hints hint →
    LowerM.Settles compiler.typesInPlay later (left.lower hint) (right.lower hint)
      (compiler.InPlay hint)

theorem Operand.Agree.later {left right : Operand} {later : LowerState}
    (agree : Operand.Agree compiler state left right) (order : state.Extends later) :
    Operand.Agree compiler later left right :=
  ⟨agree.expr, agree.span, fun last more => agree.lower last (order.trans more)⟩

abbrev Operand.AllAgree (compiler : Compiler) (state : LowerState) (lefts rights : List Operand) :
    Prop :=
  List.Forall₂ (Operand.Agree compiler state) lefts rights

theorem Operand.AllAgree.later {lefts rights : List Operand} {later : LowerState}
    (agree : Operand.AllAgree compiler state lefts rights) (order : state.Extends later) :
    Operand.AllAgree compiler later lefts rights :=
  agree.imp fun _ _ agree => agree.later order

theorem Operand.AllAgree.map_expr {lefts rights : List Operand}
    (agree : Operand.AllAgree compiler state lefts rights) :
    rights.map (·.expr) = lefts.map (·.expr) := by
  induction agree with
  | nil => rfl
  | cons first _ ih => rw [List.map_cons, List.map_cons, first.expr, ih]

namespace Operand

theorem lowerAs_settles {left right : Operand} (agree : Agree compiler state left right)
    {type : Ty} (known : type ∈ compiler.typesInPlay) :
    LowerM.Settles compiler.typesInPlay state (left.lowerAs compiler.catalog type)
      (right.lowerAs compiler.catalog type) fun _ => True := by
  refine .bind (agree.lower state (.refl state) _ (.some known)) fun later _ node _ => ?_
  rw [locating, locating, agree.expr, agree.span]
  exact .locating _ _ (Catalog.coerce_settles node type)

theorem lowerRest_settles {type : Ty} (known : type ∈ compiler.typesInPlay)
    {lefts rights : List Operand} {nodes : List Node}
    (agree : AllAgree compiler state lefts rights) (lengths : nodes.length = lefts.length) :
    LowerM.Settles compiler.typesInPlay state (lowerRest compiler.catalog type lefts nodes)
      (lowerRest compiler.catalog type rights nodes) fun result =>
        result.length = lefts.length := by
  induction lefts generalizing rights nodes state with
  | nil =>
    cases agree
    exact .pure rfl
  | cons left lefts ih =>
    cases agree with
    | @cons _ right _ rights first rest =>
      cases nodes with
      | nil => cases lengths
      | cons node nodes =>
        have continued : ∀ later, state.Extends later → ∀ head : Node,
            LowerM.Settles compiler.typesInPlay later
              (do return head :: (← lowerRest compiler.catalog type lefts nodes))
              (do return head :: (← lowerRest compiler.catalog type rights nodes))
              fun result => result.length = (left :: lefts).length := by
          intro later order head
          refine .bind (ih (AllAgree.later rest order) (Nat.succ.inj lengths))
            fun _ _ tail size => ?_
          exact .pure (congrArg Nat.succ size)
        rw [lowerRest, lowerRest]
        split
        · have kept : LowerM.Settles compiler.typesInPlay state (pure node) (pure node)
              fun _ => True := .pure trivial
          exact .bind kept fun later order head _ => continued later order head
        · exact .bind (lowerAs_settles first known) fun later order head _ =>
            continued later order head

theorem unify_settles {lefts rights : List Operand} {nodes : List Node}
    (agree : AllAgree compiler state lefts rights) (lengths : nodes.length = lefts.length)
    (known : ∀ node ∈ nodes, node.ty ∈ compiler.typesInPlay) :
    LowerM.Settles compiler.typesInPlay state (unify compiler.catalog lefts nodes)
      (unify compiler.catalog rights nodes) fun result =>
        result.1.length = lefts.length ∧ result.2 ∈ compiler.typesInPlay := by
  unfold unify
  split
  · exact .throw fun same => by cases same
  · rename_i first rest
    split
    · exact .pure ⟨lengths, known first (by simp)⟩
    · refine .bind (Catalog.widestOf_settles _) fun later order widest found => ?_
      obtain ⟨node, member, rfl⟩ := found
      refine .bind (lowerRest_settles (known node member) (agree.later order) lengths)
        fun _ _ result size => ?_
      exact .pure ⟨size, known node member⟩

end Operand

end Formulary
