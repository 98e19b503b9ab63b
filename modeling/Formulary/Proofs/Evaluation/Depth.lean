import Formulary.Evaluation.Machine

namespace Formulary

/-! Evaluation ends at every limit on the depth of calls, and a limit that is not met could as well
    be higher. Nodes are finite, so only calls could go on for ever. -/

/-- The second outcome is the first one, unless the first one was given up with this error. -/
def Persists (given : ε) (left right : Except ε α) : Prop := left = .error given ∨ right = left

namespace Persists

variable {given : ε}

theorem refl (outcome : Except ε α) : Persists given outcome outcome := .inr rfl

theorem bind {left right : Except ε α} {next next' : α → Except ε β}
    (first : Persists given left right) (continued : ∀ a, Persists given (next a) (next' a)) :
    Persists given (left >>= next) (right >>= next') := by
  rcases first with rfl | rfl
  · exact .inl rfl
  · cases right with
    | ok a => exact continued a
    | error error => exact .inr rfl

theorem map {left right : Except ε α} (first : Persists given left right) (change : α → β) :
    Persists given (left.map change) (right.map change) := by
  rcases first with rfl | rfl
  · exact .inl rfl
  · exact .inr rfl

/-- The second operand of a logical operator is the only one that is still open. -/
theorem connect {given : EvalError} {op : Operator} {first : Bool}
    {second second' : Unit → Except EvalError Bool}
    (persists : Persists given (second ()) (second' ())) :
    Persists given (op.connect first second) (op.connect first second') := by
  cases op with
  | and | or => cases first <;> first | exact persists | exact refl _
  | nand | nor => cases first <;> first | exact persists.map _ | exact refl _
  | xor | xnor => exact persists.map _
  | _ => exact refl _

end Persists

namespace Node

variable {calculator : Calculator} {given : EvalError}
variable {call call' : Nat → List Value → Except EvalError Value}

mutual

/-- Errors are passed on, never caught: where a call is given up, so is the node around it. -/
theorem evalWith_persists (calls : ∀ index values, Persists given (call index values)
    (call' index values)) (slots parameters : List Value) :
    ∀ node : Node, Persists given (node.evalWith calculator call slots parameters)
      (node.evalWith calculator call' slots parameters)
  | constant _ | slot _ _ | parameter _ _ => .refl _
  | convert _ operand | negate _ operand | not operand | factorial _ operand
  | member _ _ operand => by
    simp only [evalWith]
    exact (evalWith_persists calls slots parameters operand).bind fun _ => .refl _
  | arith _ _ left right | compare _ left right => by
    simp only [evalWith]
    exact (evalWith_persists calls slots parameters left).bind fun _ =>
      (evalWith_persists calls slots parameters right).bind fun _ => .refl _
  | logic _ left right => by
    simp only [evalWith]
    refine (evalWith_persists calls slots parameters left).bind fun _ =>
      Persists.bind (.refl _) fun _ => Persists.bind (.connect ?_) fun _ => .refl _
    exact (evalWith_persists calls slots parameters right).bind fun _ => .refl _
  | choose _ condition positive negative => by
    simp only [evalWith]
    refine (evalWith_persists calls slots parameters condition).bind fun _ =>
      Persists.bind (.refl _) fun holds => ?_
    split
    · exact evalWith_persists calls slots parameters positive
    · exact evalWith_persists calls slots parameters negative
  | native _ _ arguments => by
    simp only [evalWith]
    exact (evalAllWith_persists calls slots parameters arguments).bind fun _ => .refl _
  | .call function _ arguments => by
    simp only [evalWith]
    exact (evalAllWith_persists calls slots parameters arguments).bind (calls function)
  | guard _ condition body => by
    simp only [evalWith]
    refine (evalWith_persists calls slots parameters condition).bind fun _ =>
      Persists.bind (.refl _) fun holds => ?_
    split
    · exact .refl _
    · exact evalWith_persists calls slots parameters body

theorem evalAllWith_persists (calls : ∀ index values, Persists given (call index values)
    (call' index values)) (slots parameters : List Value) :
    ∀ nodes : List Node, Persists given (evalAllWith calculator call slots parameters nodes)
      (evalAllWith calculator call' slots parameters nodes)
  | [] => .refl _
  | node :: rest => by
    simp only [evalAllWith]
    exact (evalWith_persists calls slots parameters node).bind fun _ =>
      (evalAllWith_persists calls slots parameters rest).bind fun _ => .refl _

end

end Node

namespace Machine

variable (machine : Machine) (program : Program) (slots : List Value)

/-- A call from below `depth` other calls, followed as it stands: the function is looked up, the
    depth is compared with the limit, and the body is entered one call deeper. After `unrolled`
    nested calls anything may happen. -/
def callFrom (beyond : Nat → Nat → List Value → Except EvalError Value) :
    Nat → Nat → Nat → List Value → Except EvalError Value
  | 0, depth, index, arguments => beyond depth index arguments
  | unrolled + 1, depth, index, arguments =>
    match program.functions[index]? with
    | some function =>
      if machine.maxCallDepth ≤ depth then .error (.callDepthExceeded machine.maxCallDepth)
      else
        function.body.evalWith machine.calculator (callFrom beyond unrolled (depth + 1)) slots
          arguments
    | none => .error (.unknownFunction index)

/-- Evaluation with calls that are followed `unrolled` deep. -/
def evaluateFrom (beyond : Nat → Nat → List Value → Except EvalError Value) (unrolled : Nat) :
    Except EvalError Value :=
  if slots.length ≠ program.slots.length then
    .error (.argumentCount program.slots.length slots.length)
  else
    program.root.evalWith machine.calculator
      (machine.callFrom program slots beyond unrolled 0) slots []

theorem callFrom_eq_call (beyond : Nat → Nat → List Value → Except EvalError Value)
    {remaining depth unrolled : Nat} (met : depth + remaining = machine.maxCallDepth)
    (enough : remaining < unrolled) :
    machine.callFrom program slots beyond unrolled depth =
      machine.call program slots remaining := by
  induction remaining generalizing depth unrolled with
  | zero =>
    obtain ⟨unrolled, rfl⟩ := Nat.exists_eq_add_one_of_ne_zero (Nat.ne_zero_of_lt enough)
    have reached : machine.maxCallDepth ≤ depth := by omega
    funext index arguments
    cases found : program.functions[index]? <;> simp only [callFrom, call, found, reached, if_true]
  | succ remaining ih =>
    obtain ⟨unrolled, rfl⟩ := Nat.exists_eq_add_one_of_ne_zero (Nat.ne_zero_of_lt enough)
    have below : ¬ machine.maxCallDepth ≤ depth := by omega
    have deeper : machine.callFrom program slots beyond unrolled (depth + 1) =
        machine.call program slots remaining := ih (by omega) (by omega)
    funext index arguments
    cases found : program.functions[index]? <;>
      simp only [callFrom, call, found, below, if_false, deeper]

theorem call_persists (limit remaining extra index : Nat) (arguments : List Value) :
    Persists (.callDepthExceeded machine.maxCallDepth)
      (machine.call program slots remaining index arguments)
      (({ machine with maxCallDepth := limit } : Machine).call program slots (remaining + extra)
        index arguments) := by
  induction remaining generalizing index arguments with
  | zero =>
    cases found : program.functions[index]? with
    | some function =>
      left
      simp only [call, found]
    | none =>
      right
      cases extra <;> simp only [call, found]
  | succ remaining ih =>
    rw [Nat.succ_add]
    simp only [call]
    split
    · exact Node.evalWith_persists ih slots arguments _
    · exact .refl _

/-- Evaluation ends: no more calls are nested than the limit allows, so that following them further
    than that, whatever might be done there, has the same outcome. If the limit is not exceeded,
    the outcome is the same at every higher limit. -/
theorem evaluate_terminates :
    (∀ beyond unrolled, machine.maxCallDepth < unrolled →
      machine.evaluateFrom program slots beyond unrolled = machine.evaluate program slots) ∧
    ∀ limit, machine.maxCallDepth ≤ limit →
      machine.evaluate program slots ≠ .error (.callDepthExceeded machine.maxCallDepth) →
      ({ machine with maxCallDepth := limit } : Machine).evaluate program slots =
        machine.evaluate program slots := by
  constructor
  · intro beyond unrolled enough
    rw [evaluateFrom, evaluate,
      machine.callFrom_eq_call program slots beyond (Nat.zero_add _) enough]
  · intro limit higher unexceeded
    obtain ⟨extra, rfl⟩ := Nat.exists_eq_add_of_le higher
    by_cases sized : slots.length = program.slots.length
    · simp only [evaluate, sized, ne_eq, not_true_eq_false, if_false] at unexceeded ⊢
      have calls := machine.call_persists program slots (machine.maxCallDepth + extra)
        machine.maxCallDepth extra
      exact (Node.evalWith_persists calls slots [] program.root).resolve_left unexceeded
    · simp only [evaluate, sized, ne_eq, not_false_eq_true, if_true]

end Machine

/-- A function that calls itself with one less until it is called with zero. -/
def descent : Program where
  root := .call 0 .int32 [.slot 0 .int32]
  functions := [{
    name := "f", parameters := [.int32], returnType := .int32
    body := .choose .int32
      (.compare .equal (.parameter 0 .int32) (.constant (.int32 .zero))) (.constant (.int32 .zero))
      (.call 0 .int32 [.arith .sub .int32 (.parameter 0 .int32) (.constant (.int32 .one))]) }]
  slots := [⟨"n", .int32⟩]

/-- Two calls are made for one, so that the limit of two is not exceeded, and the value is the one
    at every higher limit. At the limit of one the evaluation ends with the second call. -/
theorem descent_terminates :
    ({ maxCallDepth := 2 } : Machine).evaluate descent [.int32 .one] = .ok (.int32 .zero) ∧
    (∀ limit, 2 ≤ limit → ({ maxCallDepth := limit } : Machine).evaluate descent [.int32 .one] =
      .ok (.int32 .zero)) ∧
    ∀ beyond, ({ maxCallDepth := 1 } : Machine).evaluateFrom descent [.int32 .one] beyond 2 =
      .error (.callDepthExceeded 1) := by
  have value : ({ maxCallDepth := 2 } : Machine).evaluate descent [.int32 .one] =
      .ok (.int32 .zero) := rfl
  refine ⟨value, fun limit higher => ?_, fun beyond => ?_⟩
  · have same := (Machine.evaluate_terminates { maxCallDepth := 2 } descent [.int32 .one]).2
      limit higher (by simp [value])
    exact same.trans value
  · have ended := (Machine.evaluate_terminates { maxCallDepth := 1 } descent [.int32 .one]).1
      beyond 2 (by decide)
    exact ended.trans rfl

end Formulary
