import Formulary.Evaluation.Machine
import Formulary.Proofs.Evaluation.Outcome

namespace Formulary

/-! Where an error of a run comes from. A run evaluates a node only when the values before it ask
    for it, so an error belongs to one node: the operation of that node failed on the values that
    its operands had, and everything around it passed the error on. -/

/-- What a node is evaluated with: the functions of the program and the values at hand. -/
structure Activation where
  calculator : Calculator
  call : Nat → List Value → Except EvalError Value
  slots : List Value
  parameters : List Value

namespace Activation

abbrev eval (activation : Activation) (node : Node) : Except EvalError Value :=
  node.evalWith activation.calculator activation.call activation.slots activation.parameters

abbrev evalAll (activation : Activation) (nodes : List Node) : Except EvalError (List Value) :=
  Node.evalAllWith activation.calculator activation.call activation.slots activation.parameters nodes

end Activation

namespace Node

/-- The operands that a node always evaluates, one after the other. -/
def operands : Node → List Node
  | constant _ | slot _ _ | parameter _ _ => []
  | convert _ operand | negate _ operand | not operand | factorial _ operand
  | member _ _ operand => [operand]
  | arith _ _ left right | compare _ left right => [left, right]
  | logic _ left _ => [left]
  | choose _ condition _ _ | guard _ condition _ => [condition]
  | native _ _ arguments | call _ _ arguments => arguments

/-- The further operand that a node evaluates, depending on the truth of the one before. -/
def branch? : Node → Bool → Option Node
  | logic op _ right, first => if op.asks first then some right else none
  | choose _ _ positive negative, chosen => some (if chosen then positive else negative)
  | guard _ _ body, violated => if violated then none else some body
  | _, _ => none

end Node

namespace Activation

variable {activation : Activation} {node operand : Node} {error : EvalError}

/-- To evaluate the first node is to evaluate the second one. -/
inductive Reaches (activation : Activation) : Node → Node → Prop
  | operand {node operand : Node} {before after : List Node} {values : List Value}
      (listed : node.operands = before ++ operand :: after)
      (evaluated : activation.evalAll before = .ok values) : Reaches activation node operand
  | branch {node condition branch : Node} {value : Value} {truth : Bool}
      (listed : node.operands = [condition]) (evaluated : activation.eval condition = .ok value)
      (known : value.truth = .ok truth) (taken : node.branch? truth = some branch) :
      Reaches activation node branch

theorem Reaches.first {after : List Node} (listed : node.operands = operand :: after) :
    activation.Reaches node operand :=
  .operand (show node.operands = [] ++ operand :: after from listed) rfl

theorem evalAll_cons (rest : List Node) :
    activation.evalAll (node :: rest) = do
      let value ← activation.eval node
      let values ← activation.evalAll rest
      return value :: values := by
  simp only [evalAll, Node.evalAllWith]

theorem evalAll_append (before after : List Node) :
    activation.evalAll (before ++ after) = do
      let values ← activation.evalAll before
      let rest ← activation.evalAll after
      return values ++ rest := by
  induction before with
  | nil =>
    change activation.evalAll after = activation.evalAll after >>= fun rest => .ok rest
    cases activation.evalAll after <;> rfl
  | cons node before ih =>
    rw [List.cons_append, evalAll_cons, evalAll_cons, ih]
    cases activation.eval node with
    | error error => rfl
    | ok value =>
      cases activation.evalAll before with
      | error error => rfl
      | ok values => cases activation.evalAll after <;> rfl

theorem evalAll_singleton {value : Value} :
    activation.evalAll [node] = .ok [value] ↔ activation.eval node = .ok value := by
  rw [evalAll_cons]
  constructor
  · intro done
    obtain ⟨found, evaluated, same⟩ := bind_eq_ok.mp done
    cases same
    exact evaluated
  · exact fun evaluated => bind_eq_ok.mpr ⟨value, evaluated, rfl⟩

theorem Reaches.second {left right : Node} {value : Value} (listed : node.operands = [left, right])
    (evaluated : activation.eval left = .ok value) : activation.Reaches node right :=
  .operand (show node.operands = [left] ++ right :: [] from listed)
    (evalAll_singleton.mpr evaluated)

theorem evalAll_pair {left right : Node} {first second : Value} :
    activation.evalAll [left, right] = .ok [first, second] ↔
      activation.eval left = .ok first ∧ activation.eval right = .ok second := by
  rw [evalAll_cons]
  constructor
  · intro done
    obtain ⟨found, leftDone, done⟩ := bind_eq_ok.mp done
    obtain ⟨others, rightDone, same⟩ := bind_eq_ok.mp done
    cases same
    exact ⟨leftDone, evalAll_singleton.mp rightDone⟩
  · exact fun ⟨leftDone, rightDone⟩ => bind_eq_ok.mpr
      ⟨first, leftDone, bind_eq_ok.mpr ⟨[second], evalAll_singleton.mpr rightDone, rfl⟩⟩

theorem eval_of_evalAll_singleton (failed : activation.evalAll [node] = .error error) :
    activation.eval node = .error error := by
  rw [evalAll_cons] at failed
  rcases bind_eq_error.mp failed with failed | ⟨value, -, failed⟩
  · exact failed
  · cases failed

theorem eval_of_operands (failed : activation.evalAll node.operands = .error error) :
    activation.eval node = .error error := by
  cases node with
  | constant _ | slot _ _ | parameter _ _ => cases failed
  | convert _ operand | negate _ operand | not operand | factorial _ operand
  | member _ _ operand | logic _ operand _ | choose _ operand _ _ | guard _ operand _ =>
    exact bind_eq_error.mpr (.inl (eval_of_evalAll_singleton failed))
  | arith _ _ left right | compare _ left right =>
    simp only [Node.operands] at failed
    rw [evalAll_cons] at failed
    rcases bind_eq_error.mp failed with failed | ⟨value, evaluated, failed⟩
    · exact bind_eq_error.mpr (.inl failed)
    · rcases bind_eq_error.mp failed with failed | ⟨_, -, failed⟩
      · exact bind_eq_error.mpr (.inr ⟨value, evaluated,
          bind_eq_error.mpr (.inl (eval_of_evalAll_singleton failed))⟩)
      · cases failed
  | native _ _ arguments | call _ _ arguments =>
    exact bind_eq_error.mpr (.inl failed)

theorem Reaches.fails (reached : activation.Reaches node operand)
    (failed : activation.eval operand = .error error) : activation.eval node = .error error := by
  cases reached with
  | operand listed evaluated =>
    refine eval_of_operands ?_
    rw [listed, evalAll_append, evaluated, evalAll_cons, failed]
    rfl
  | branch listed evaluated known taken =>
    rename_i condition value truth
    have after {next : Bool → Except EvalError Value} (failed : next truth = .error error) :
        (activation.eval condition >>= fun value => EvalError.lift value.truth >>= next) =
          .error error :=
      bind_eq_error.mpr (.inr ⟨value, evaluated,
        bind_eq_error.mpr (.inr ⟨truth, EvalError.lift_eq_ok.mpr known, failed⟩)⟩)
    cases node with
    | logic op left right =>
      cases listed
      simp only [Node.branch?, Option.ite_none_right_eq_some, Option.some.injEq] at taken
      obtain ⟨asked, rfl⟩ := taken
      refine after (bind_eq_error.mpr (.inl (Operator.connect_of_asks asked ?_)))
      exact bind_eq_error.mpr (.inl failed)
    | choose _ _ positive negative =>
      cases listed
      cases taken
      refine after ?_
      cases truth <;> exact failed
    | guard _ _ body =>
      cases listed
      simp only [Node.branch?, Option.ite_none_left_eq_some, Option.some.injEq] at taken
      obtain ⟨kept, rfl⟩ := taken
      refine after ?_
      rw [if_neg kept]
      exact failed
    | _ => cases taken

/-- The error arises at one of the nodes that the evaluation reaches: the operation of that node
    has `own` cause for it, or calls a function that ends with it. -/
inductive Raises (activation : Activation) (own : Node → List Value → EvalError → Prop)
    (calls : Nat → List Value → EvalError → Prop) : Node → EvalError → Prop
  | here {node : Node} {values : List Value} {error : EvalError}
      (evaluated : activation.evalAll node.operands = .ok values)
      (caused : own node values error) : Raises activation own calls node error
  | operand {node operand : Node} {error : EvalError} (reached : activation.Reaches node operand)
      (raised : Raises activation own calls operand error) :
      Raises activation own calls node error
  | call {index : Nat} {type : Ty} {arguments : List Node} {values : List Value}
      {error : EvalError} (evaluated : activation.evalAll arguments = .ok values)
      (raised : calls index values error) :
      Raises activation own calls (.call index type arguments) error

/-- Causes are of the errors that the operations of nodes have. -/
def Causes (activation : Activation) (own : Node → List Value → EvalError → Prop) : Prop :=
  ∀ {node values error}, own node values error →
    activation.evalAll node.operands = .ok values → activation.eval node = .error error

theorem Raises.eval {own : Node → List Value → EvalError → Prop}
    {calls : Nat → List Value → EvalError → Prop} (causes : activation.Causes own)
    (called : ∀ {index values error}, calls index values error →
      activation.call index values = .error error)
    (raised : activation.Raises own calls node error) : activation.eval node = .error error := by
  induction raised with
  | here evaluated caused => exact causes caused evaluated
  | operand reached _ ih => exact reached.fails ih
  | call evaluated raised =>
    exact bind_eq_error.mpr (.inr ⟨_, evaluated, called raised⟩)

end Activation

namespace Machine

variable {machine : Machine} {program : Program} {slots : List Value}
  {own : Node → List Value → EvalError → Prop} {error : EvalError}

/-- The body of a function is evaluated with its arguments and with fewer calls left. -/
abbrev activation (machine : Machine) (program : Program) (slots : List Value) (remaining : Nat)
    (arguments : List Value) : Activation :=
  ⟨machine.calculator, machine.call program slots remaining, slots, arguments⟩

/-- The error arises in a call of a function, or in the calls that it makes. -/
def CallRaises (machine : Machine) (own : Node → List Value → EvalError → Prop)
    (program : Program) (slots : List Value) : Nat → Nat → List Value → EvalError → Prop
  | 0, _, _, _ => False
  | remaining + 1, index, arguments, error =>
    ∃ function, program.functions[index]? = some function ∧
      (machine.activation program slots remaining arguments).Raises own
        (machine.CallRaises own program slots remaining) function.body error

/-- The error arises in the evaluation of a program. -/
def Raises (machine : Machine) (own : Node → List Value → EvalError → Prop) (program : Program)
    (slots : List Value) (error : EvalError) : Prop :=
  (machine.activation program slots machine.maxCallDepth []).Raises own
    (machine.CallRaises own program slots machine.maxCallDepth) program.root error

theorem CallRaises.call
    (causes : ∀ remaining arguments,
      (machine.activation program slots remaining arguments).Causes own)
    {remaining index : Nat} {arguments : List Value}
    (raised : machine.CallRaises own program slots remaining index arguments error) :
    machine.call program slots remaining index arguments = .error error := by
  induction remaining generalizing index arguments error with
  | zero => exact raised.elim
  | succ remaining ih =>
    obtain ⟨function, found, raised⟩ := raised
    simp only [Machine.call, found]
    exact raised.eval (causes remaining arguments) ih

theorem Raises.evaluate
    (causes : ∀ remaining arguments,
      (machine.activation program slots remaining arguments).Causes own)
    (size : slots.length = program.slots.length)
    (raised : machine.Raises own program slots error) :
    machine.evaluate program slots = .error error := by
  rw [Machine.evaluate, if_neg (not_not_intro size)]
  exact Activation.Raises.eval (causes _ _) (CallRaises.call causes) raised

end Machine

end Formulary
