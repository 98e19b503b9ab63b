import Formulary.Proofs.Semantics.Complete
import Formulary.Proofs.Simplify.Fold

namespace Formulary

/-! Folded literals of formulas over decimals. Only operations that have a value are folded, so
    a formula and its folded form have the same outcome under all inputs. Bodies of definitions
    are folded too; calls of them have the same outcomes by induction on their nesting. -/

open Decimal (Same)

variable {calculator : Calculator} {keptApart : List Operator} {declared : Table Ty}

namespace Definition

/-- The definition with the literals of its body folded. -/
def folded (calculator : Calculator) (keptApart : List Operator) (definition : Definition) :
    Definition :=
  { definition with body := definition.body.foldLiterals calculator keptApart }

@[simp] theorem parameters_folded (definition : Definition) :
    (definition.folded calculator keptApart).parameters = definition.parameters := rfl

theorem visible_folded (calculator : Calculator) (keptApart : List Operator) (name : String)
    (definitions : List Definition) :
    visible name (definitions.map (folded calculator keptApart)) =
      (visible name definitions).map (folded calculator keptApart) := by
  induction definitions with
  | nil => rfl
  | cons definition rest ih =>
    rw [List.map_cons, visible, visible, ih]
    by_cases same : definition.name = name
    · simp [folded, same]
    · simp [folded, same]

end Definition

namespace Expr

/-! Folding keeps formulas complete. -/

variable {parameters : List String} {arities : List (String × Nat)}

theorem length_foldLiteralsAll (exprs : List Expr) :
    (foldLiteralsAll calculator keptApart exprs).length = exprs.length := by
  induction exprs with
  | nil => rfl
  | cons expr rest ih => rw [foldLiteralsAll, List.length_cons, List.length_cons, ih]

theorem foldFront_suffix (calculator : Calculator) (op : Operator) (held : Decimal)
    (operands : List Expr) :
    (foldFront calculator op held operands).2 <:+ operands := by
  fun_induction foldFront calculator op held operands with
  | case1 held value rest folded fold ih => exact ih.trans (List.suffix_cons _ _)
  | case2 => exact List.suffix_refl _
  | case3 => exact List.suffix_refl _

theorem foldLeading_complete (op : Operator) {operands : List Expr} (nonempty : operands ≠ [])
    (complete : CompleteAll declared parameters arities operands) :
    foldLeading calculator op operands ≠ [] ∧
      CompleteAll declared parameters arities (foldLeading calculator op operands) := by
  fun_cases foldLeading calculator op operands with
  | case1 value rest held rest' result =>
    have suffix := foldFront_suffix calculator op value rest
    rw [result] at suffix
    refine ⟨List.cons_ne_nil _ _, trivial, completeAll_iff.mpr fun expr member => ?_⟩
    exact completeAll_iff.mp complete.2 expr (suffix.subset member)
  | case2 => exact ⟨nonempty, complete⟩

theorem foldOperand_complete {op : UnaryOperator} (arithmetic : op ≠ .not) {operand : Expr}
    (complete : operand.Complete declared parameters arities) :
    (foldOperand calculator op operand).Complete declared parameters arities := by
  unfold foldOperand
  split
  · trivial
  · exact ⟨arithmetic, complete⟩

theorem Complete.nary {op : Operator} {operands : List Expr} (arithmetic : op.isArithmetic = true)
    (nonempty : operands ≠ []) (complete : CompleteAll declared parameters arities operands) :
    (nary op operands).Complete declared parameters arities := by
  match operands with
  | [] => exact absurd rfl nonempty
  | [operand] => exact complete.1
  | _ :: _ :: _ => exact ⟨arithmetic, nonempty, complete⟩

mutual

theorem foldLiterals_complete (apart : ∀ op, chains keptApart op = false) :
    ∀ (expr : Expr) {parameters : List String} {arities : List (String × Nat)},
      expr.Complete declared parameters arities →
        (expr.foldLiterals calculator keptApart).Complete declared parameters arities
  | number _, _, _, complete => complete
  | var _, _, _, complete => complete
  | unary op operand, _, _, complete => by
    rw [foldLiterals]
    exact foldOperand_complete complete.1 (foldLiterals_complete apart operand complete.2)
  | binary op operands, _, _, complete => by
    have operandsComplete := foldLiteralsAll_complete apart operands complete.2.2
    have nonempty : foldLiteralsAll calculator keptApart operands ≠ [] := by
      rw [← List.length_pos_iff, length_foldLiteralsAll, List.length_pos_iff]
      exact complete.2.1
    obtain ⟨leads, leading⟩ := foldLeading_complete op nonempty operandsComplete
    rw [foldLiterals, foldOperands, apart op, if_neg Bool.false_ne_true]
    exact .nary complete.1 leads leading
  | call name arguments primed, _, _, complete => by
    rw [foldLiterals, Complete, length_foldLiteralsAll]
    exact ⟨complete.1, foldLiteralsAll_complete apart arguments complete.2⟩
  | define name own body value, _, _, complete => by
    rw [foldLiterals]
    exact ⟨foldLiterals_complete apart body complete.1,
      foldLiterals_complete apart value complete.2⟩
  | text _, _, _, complete | member _ _, _, _, complete => complete.elim

theorem foldLiteralsAll_complete (apart : ∀ op, chains keptApart op = false) :
    ∀ (exprs : List Expr) {parameters : List String} {arities : List (String × Nat)},
      CompleteAll declared parameters arities exprs →
        CompleteAll declared parameters arities (foldLiteralsAll calculator keptApart exprs)
  | [], _, _, _ => trivial
  | expr :: rest, _, _, complete => by
    rw [foldLiteralsAll]
    exact ⟨foldLiterals_complete apart expr complete.1,
      foldLiteralsAll_complete apart rest complete.2⟩

end

/-! Folding keeps outcomes. -/

variable {inputs : String → Option Decimal}
variable {enter enter' : Definition → List Definition → List Decimal → Except EvalError Decimal}

/-- Bodies of complete definitions have the same outcomes when they are folded. -/
def EntersFolded (calculator : Calculator) (keptApart : List Operator) (declared : Table Ty)
    (enter enter' : Definition → List Definition → List Decimal → Except EvalError Decimal) :
    Prop :=
  ∀ definition below, Definition.Complete declared (definition :: below) →
    ∀ values values', List.Forall₂ Same values values' →
      EvalError.Alike Same (enter definition below values)
        (enter' (definition.folded calculator keptApart)
          (below.map (Definition.folded calculator keptApart)) values')

theorem EntersFolded.applyNamed (enters : EntersFolded calculator keptApart declared enter enter')
    {definitions : List Definition} (complete : Definition.Complete declared definitions)
    (name : String) (primed : Bool) {values values' : List Decimal}
    (same : List.Forall₂ Same values values') :
    EvalError.Alike Same (Definition.applyNamed calculator enter definitions name primed values)
      (Definition.applyNamed calculator enter'
        (definitions.map (Definition.folded calculator keptApart)) name primed values') := by
  have visible := Definition.visible_folded calculator keptApart name definitions
  cases seen : Definition.visible name definitions with
  | nil =>
    rw [seen, List.map_nil] at visible
    simp only [Definition.applyNamed, seen, visible]
    split
    · exact MathFunction.value_congr calculator _ same
    · rfl
  | cons definition below =>
    rw [seen, List.map_cons] at visible
    rw [Definition.applyNamed_self seen, Definition.applyNamed_self visible, same.length_eq,
      Definition.parameters_folded]
    have order := (Definition.visible_eq_cons seen).2
    by_cases suits : values'.length = definition.parameters.length
    · rw [if_pos suits, if_pos suits]
      exact enters definition below (complete.below order) values values' same
    · rw [if_neg suits, if_neg suits]
      rfl

mutual

theorem foldLiterals_sameOutcome (numeric : calculator.Numeric)
    (estimates : calculator.EstimatesLogarithm) (apart : ∀ op, chains keptApart op = false)
    (enters : EntersFolded calculator keptApart declared enter enter') :
    ∀ (expr : Expr) {names : List String} {parameters parameters' : List (String × Decimal)}
      {definitions : List Definition},
      expr.Complete declared names (Definition.arities definitions) →
      Definition.Complete declared definitions → SameNames Same parameters parameters' →
        SameOutcome calculator inputs enter enter' ⟨parameters, definitions⟩
          ⟨parameters', definitions.map (Definition.folded calculator keptApart)⟩ expr
          (expr.foldLiterals calculator keptApart)
  | number value, _, _, _, _, _, _, _ => by
    unfold SameOutcome
    simp only [foldLiterals, valueWith]
    rfl
  | var name, _, _, _, _, _, _, same => .var same name
  | unary op operand, _, _, _, _, complete, known, same => by
    have inside := foldLiterals_sameOutcome numeric estimates apart enters operand complete.2
      known same
    rw [foldLiterals]
    exact (SameOutcome.unary numeric op inside).trans (foldOperand_sameOutcome complete.1 _)
  | binary op operands, _, _, _, _, complete, known, same => by
    have inside := foldLiteralsAll_sameOutcomes numeric estimates apart enters operands
      complete.2.2 known same
    rw [foldLiterals, foldOperands, apart op, if_neg Bool.false_ne_true, SameOutcome,
      valueWith_nary]
    exact (SameOutcome.binary op inside).trans (foldLeading_sameOutcome estimates complete.1 _)
  | call name arguments primed, _, _, _, _, complete, known, same => by
    have inside := foldLiteralsAll_sameOutcomes numeric estimates apart enters arguments
      complete.2 known same
    unfold SameOutcome
    simp only [foldLiterals, valueWith]
    exact (SameOutcome.values inside).bind fun _ _ related =>
      enters.applyNamed known name primed related
  | define name own body value, _, _, _, definitions, complete, known, same => by
    let definition : Definition := ⟨name, own, body⟩
    have inner : Definition.Complete declared (definition :: definitions) :=
      known.cons complete.1
    have inside := foldLiterals_sameOutcome numeric estimates apart enters value complete.2 inner
      same
    unfold SameOutcome
    simp only [foldLiterals, valueWith]
    exact inside
  | text _, _, _, _, _, complete, _, _ | member _ _, _, _, _, _, complete, _, _ => complete.elim

theorem foldLiteralsAll_sameOutcomes (numeric : calculator.Numeric)
    (estimates : calculator.EstimatesLogarithm) (apart : ∀ op, chains keptApart op = false)
    (enters : EntersFolded calculator keptApart declared enter enter') :
    ∀ (exprs : List Expr) {names : List String} {parameters parameters' : List (String × Decimal)}
      {definitions : List Definition},
      CompleteAll declared names (Definition.arities definitions) exprs →
      Definition.Complete declared definitions → SameNames Same parameters parameters' →
        SameOutcomes calculator inputs enter enter' ⟨parameters, definitions⟩
          ⟨parameters', definitions.map (Definition.folded calculator keptApart)⟩ exprs
          (foldLiteralsAll calculator keptApart exprs)
  | [], _, _, _, _, _, _, _ => .nil
  | expr :: rest, _, _, _, _, complete, known, same => by
    rw [foldLiteralsAll]
    exact .cons
      (foldLiterals_sameOutcome numeric estimates apart enters expr complete.1 known same)
      (foldLiteralsAll_sameOutcomes numeric estimates apart enters rest complete.2 known same)

end

theorem enterWithin_folded (numeric : calculator.Numeric)
    (estimates : calculator.EstimatesLogarithm) (apart : ∀ op, chains keptApart op = false)
    (depth : Nat) :
    EntersFolded calculator keptApart declared (enterWithin calculator inputs depth)
      (enterWithin calculator inputs depth) := by
  induction depth with
  | zero => exact fun _ _ _ _ _ _ => rfl
  | succ depth ih =>
    intro definition below complete values values' same
    exact foldLiterals_sameOutcome numeric estimates apart ih definition.body
      (complete definition below (List.suffix_refl _)) complete (SameNames.zip same)

theorem foldLiterals_alike (numeric : calculator.Numeric)
    (estimates : calculator.EstimatesLogarithm) (apart : ∀ op, chains keptApart op = false)
    {expr : Expr} (complete : expr.Complete declared [] []) (depth : Nat) :
    EvalError.Alike Same (expr.valueWithin calculator inputs depth ⟨[], []⟩)
      ((expr.foldLiterals calculator keptApart).valueWithin calculator inputs depth ⟨[], []⟩) := by
  have nothing : Definition.Complete declared [] := fun _ _ inner => by simp at inner
  exact foldLiterals_sameOutcome numeric estimates apart
    (enterWithin_folded numeric estimates apart depth) expr complete nothing .nil

end Expr

end Formulary
