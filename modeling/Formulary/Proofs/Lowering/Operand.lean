import Formulary.Proofs.Lowering.Built

namespace Formulary

/-! Operators, functions and powers over operands: when lowering an operand only builds nodes by
    the rules of `Built`, so does lowering what stands above it. -/

/-- The state holds exactly the inputs and functions of the linkage, and the bodies of its
    functions are built by the rules. -/
structure Linkage.Describes (compiler : Compiler) (linkage : Linkage) (state : LowerState) :
    Prop where
  slots : state.slots = linkage.slots
  functions : state.functions.signatures = linkage.functions
  numbered : state.functions.Numbered
  names : (linkage.slots.map Slot.name).Nodup
  inputs : ∀ slot ∈ linkage.slots, compiler.options.inputs.get? slot.name = some slot.type
  bodies : ∀ {index : Nat} {function : Function}, state.functions.bodies[index]? = some (some function) →
    linkage.functions[index]? = some (function.parameters, function.returnType) ∧
      Built compiler linkage function.parameters function.body ∧
      compiler.catalog.Fits function.body function.returnType

section

variable {compiler : Compiler} {linkage : Linkage} {parameters : List Ty}

/-- Every action below builds nodes: `LowerM.Keeps` at the worlds of linkages, where nothing is
    said about failures. -/
abbrev LowerM.Builds (compiler : Compiler) (linkage : Linkage) (action : LowerM α)
    (result : Linkage → α → Prop) : Prop :=
  LowerM.Keeps (Linkage.Describes compiler) linkage action result True

/-- Whatever hint it is given, lowering the operand builds a node. -/
def Operand.Builds (compiler : Compiler) (parameters : List Ty) (operand : Operand) : Prop :=
  ∀ linkage hint, LowerM.Builds compiler linkage (operand.lower hint)
    fun later node => Built compiler later parameters node

theorem Catalog.Fits.of_coerce {catalog : Catalog} {source node : Node} {type : Ty}
    (coerced : catalog.coerce source type = .ok node) : catalog.Fits node type :=
  .inr ⟨source, coerced⟩

theorem Catalog.Fits.of_ty {catalog : Catalog} {node : Node} {type : Ty} (same : node.ty = type) :
    catalog.Fits node type := .inl same

abbrev Brought (compiler : Compiler) (parameters : List Ty) (type : Ty) (linkage : Linkage)
    (node : Node) : Prop :=
  Built compiler linkage parameters node ∧ compiler.catalog.Fits node type

theorem Brought.later {earlier later : Linkage} {type : Ty} {node : Node}
    (order : earlier ≤ later) (brought : Brought compiler parameters type earlier node) :
    Brought compiler parameters type later node :=
  ⟨brought.1.later order, brought.2⟩

theorem coerce_builds {node : Node} (built : Built compiler linkage parameters node) (type : Ty) :
    LowerM.Builds compiler linkage (liftM (compiler.catalog.coerce node type))
      (Brought compiler parameters type) :=
  .lift (fun _ coerced => ⟨.coerced built coerced, .of_coerce coerced⟩) fun _ _ => trivial

theorem materialize_builds {node : Node} (built : Built compiler linkage parameters node)
    (hint : Option Ty) :
    LowerM.Builds compiler linkage (liftM (compiler.catalog.materialize hint node))
      fun later node => Built compiler later parameters node := by
  refine .lift (fun result materialized => ?_) fun _ _ => trivial
  unfold Catalog.materialize at materialized
  split at materialized
  · cases materialized
    exact built
  · exact .coerced built materialized

theorem isNumeric_numericHint (hint : Option Ty) :
    ((numericHint hint).getD .int32).isNumeric = true := by
  cases kept : numericHint hint with
  | none => rfl
  | some type => exact (Option.filter_eq_some_iff.mp kept).2

theorem numeric_builds {node : Node} (built : Built compiler linkage parameters node)
    (hint : Option Ty) :
    LowerM.Builds compiler linkage (liftM (compiler.catalog.numeric hint node))
      fun later node => Built compiler later parameters node ∧
        ∃ type, type.isNumeric ∧ compiler.catalog.Fits node type := by
  refine .lift (fun result number => ?_) fun _ _ => trivial
  unfold Catalog.numeric at number
  split at number
  · rename_i numeric
    cases number
    exact ⟨built, node.ty, numeric, .of_ty rfl⟩
  · split at number
    · exact ⟨.coerced built number, _, isNumeric_numericHint hint, .of_coerce number⟩
    · cases number

namespace Operand

theorem lowerAs_builds {operand : Operand} (builds : operand.Builds compiler parameters)
    (type : Ty) :
    LowerM.Builds compiler linkage (operand.lowerAs compiler.catalog type)
      (Brought compiler parameters type) :=
  .bind (builds linkage (some type)) fun _ _ _ built => .locating (coerce_builds built type)

theorem lowerRest_builds {type : Ty} {operands : List Operand} {nodes : List Node}
    (builds : ∀ operand ∈ operands, operand.Builds compiler parameters)
    (built : ∀ node ∈ nodes, Built compiler linkage parameters node)
    (lengths : operands.length = nodes.length) :
    LowerM.Builds compiler linkage (lowerRest compiler.catalog type operands nodes)
      fun later result => result.length = nodes.length ∧
        ∀ node ∈ result, Brought compiler parameters type later node := by
  induction operands generalizing nodes linkage with
  | nil =>
    have empty : nodes = [] := List.length_eq_zero_iff.mp lengths.symm
    subst empty
    unfold lowerRest
    exact .pure ⟨rfl, fun node member => nomatch member⟩
  | cons operand operands ih =>
    cases nodes with
    | nil => cases lengths
    | cons node nodes =>
      have continued : ∀ later, linkage ≤ later → ∀ head,
          Brought compiler parameters type later head →
          LowerM.Builds compiler later
            (do return head :: (← lowerRest compiler.catalog type operands nodes))
            fun last result => result.length = (node :: nodes).length ∧
              ∀ node ∈ result, Brought compiler parameters type last node := by
        intro later order head brought
        refine .bind (ih (fun other member => builds other (by simp [member]))
          (fun other member => (built other (by simp [member])).later order)
          (by simpa using lengths)) fun last lastOrder rest unified => ?_
        refine .pure ⟨by simp [unified.1], ?_⟩
        intro other member
        rcases List.mem_cons.mp member with same | member
        · subst same
          exact brought.later lastOrder
        · exact unified.2 other member
      unfold lowerRest
      split
      · rename_i same
        exact .bind (.pure ⟨built node (by simp), .of_ty same⟩) continued
      · exact .bind (lowerAs_builds (builds operand (by simp)) type) continued

theorem unify_builds {operands : List Operand} {nodes : List Node}
    (builds : ∀ operand ∈ operands, operand.Builds compiler parameters)
    (built : ∀ node ∈ nodes, Built compiler linkage parameters node)
    (lengths : operands.length = nodes.length) :
    LowerM.Builds compiler linkage (unify compiler.catalog operands nodes)
      fun later result => result.1.length = nodes.length ∧
        ∀ node ∈ result.1, Brought compiler parameters result.2 later node := by
  unfold unify
  split
  · exact .throw trivial
  · rename_i first rest
    split
    · rename_i agree
      refine .pure ⟨rfl, fun node member => ⟨built node member, .of_ty ?_⟩⟩
      simpa using List.all_eq_true.mp agree node member
    · have found : LowerM.Builds compiler linkage
          (liftM (compiler.catalog.widestOf (first :: rest))) fun _ _ => True :=
        .lift (fun _ _ => trivial) fun _ _ => trivial
      refine .bind found fun later order widest _ => ?_
      refine .bind (lowerRest_builds builds
        (fun node member => (built node member).later order) lengths)
        fun last _ result unified => ?_
      exact .pure unified

end Operand

end

end Formulary
