import Formulary.Evaluation.Machine
import Formulary.Proofs.Evaluation.Outcome
import Formulary.Proofs.Lowering.Tree

namespace Formulary

/-! Closed programs: every input, parameter and function that a node refers to is there and has
    the type that the node says. Evaluation of a closed program never misses one of them. -/

namespace Node

mutual

def subnodes : Node → List Node
  | constant value => [constant value]
  | slot index type => [slot index type]
  | parameter index type => [parameter index type]
  | convert step operand => convert step operand :: subnodes operand
  | negate type operand => negate type operand :: subnodes operand
  | not operand => not operand :: subnodes operand
  | factorial type operand => factorial type operand :: subnodes operand
  | arith op type left right => arith op type left right :: (subnodes left ++ subnodes right)
  | compare op left right => compare op left right :: (subnodes left ++ subnodes right)
  | logic op left right => logic op left right :: (subnodes left ++ subnodes right)
  | choose type condition positive negative =>
    choose type condition positive negative ::
      (subnodes condition ++ subnodes positive ++ subnodes negative)
  | member name type target => member name type target :: subnodes target
  | native function type arguments => native function type arguments :: subnodesAll arguments
  | call function type arguments => call function type arguments :: subnodesAll arguments
  | guard restriction condition body =>
    guard restriction condition body :: (subnodes condition ++ subnodes body)

def subnodesAll : List Node → List Node
  | [] => []
  | node :: rest => subnodes node ++ subnodesAll rest

end

theorem mem_subnodesAll {node : Node} {nodes : List Node} :
    node ∈ subnodesAll nodes ↔ ∃ root ∈ nodes, node ∈ root.subnodes := by
  induction nodes with
  | nil => simp [subnodesAll]
  | cons root rest ih => simp [subnodesAll, ih]

/-- Steps of a conversion are the only nodes that it adds. -/
theorem mem_subnodes_converted {node source : Node} {path : Path}
    (member : node ∈ (source.converted path).subnodes) :
    node ∈ source.subnodes ∨ ∃ step operand, node = .convert step operand := by
  induction path generalizing source with
  | nil => exact .inl member
  | cons step rest ih =>
    rcases ih member with inside | added
    · rcases List.mem_cons.mp inside with same | inside
      · exact .inr ⟨step, source, same⟩
      · exact .inl inside
    · exact .inr added

end Node

namespace Program

/-- What a node refers to is in the program; `parameters` are those of the function around it. -/
def Links (program : Program) (parameters : List Ty) : Node → Prop
  | .slot index type => ∃ slot, program.slots[index]? = some slot ∧ slot.type = type
  | .parameter index type => parameters[index]? = some type
  | .call index type arguments => ∃ function, program.functions[index]? = some function ∧
      arguments.map Node.ty = function.parameters ∧ type = function.returnType
  | _ => True

structure Closed (program : Program) : Prop where
  names : program.slotNames.Nodup
  /-- The root stands outside of all functions, where there are no parameters. -/
  root : ∀ node ∈ program.root.subnodes, program.Links [] node
  bodies : ∀ function ∈ program.functions, ∀ node ∈ function.body.subnodes,
    program.Links function.parameters node

end Program

/-- Something that the program refers to is not there. -/
def EvalError.isDangling : EvalError → Bool
  | unknownFunction _ | missingSlot _ | missingParameter _ => true
  | _ => false

/-- The outcome is a value, or an error other than a missing part of the program. -/
abbrev Connected (outcome : Except EvalError α) : Prop :=
  Settles (fun _ => True) (fun error => error.isDangling = false) outcome

namespace Connected

theorem lift (outcome : Except Fault α) : Connected (EvalError.lift outcome) := by
  cases outcome <;> trivial

theorem map {outcome : Except EvalError α} (connected : Connected outcome) (change : α → β) :
    Connected (outcome.map change) :=
  Settles.map connected fun _ _ => trivial

theorem negate (value : Value) : Connected value.negate := by
  cases value with
  | int32 n | int64 n =>
    simp only [Value.negate, Value.negateSized]
    split <;> trivial
  | bool _ | float32 _ | float64 _ | decimal _ | text _ | object _ _ => trivial

theorem factorial (calculator : Calculator) (type : Ty) (value : Value) :
    Connected (value.factorial calculator type) := by
  unfold Value.factorial
  split
  · exact lift _
  · rfl

theorem checked {w : Width} (op : Operator) (a b : Sized w) (result : Option (Sized w)) :
    Connected (Sized.checked op a b result) := by
  cases result <;> trivial

theorem sized {w : Width} (op : Operator) (a b : Sized w) : Connected (Sized.arith op a b) := by
  cases op with
  | add | sub | mul => exact checked ..
  | div | rem | power =>
    simp only [Sized.arith]
    split
    · rfl
    · exact checked ..
  | _ => rfl

theorem arith (calculator : Calculator) (op : Operator) (left right : Value) :
    Connected (Value.arith calculator op left right) := by
  unfold Value.arith
  split
  · exact (sized ..).map _
  · exact (sized ..).map _
  · refine map ?_ _
    cases op <;> trivial
  · refine map ?_ _
    cases op <;> trivial
  · refine map ?_ _
    cases op with
    | div => exact lift _
    | power => exact lift _
    | rem =>
      simp only [Calculator.arith]
      split <;> trivial
    | _ => trivial
  · rfl

theorem comparison (op : Operator) (left right : Value) :
    Connected (Value.comparison op left right) := by
  unfold Value.comparison
  split
  · split <;> trivial
  · split
    · cases op <;> trivial
    · rfl

theorem native (calculator : Calculator) (function : Native) (type : Ty)
    (arguments : List Value) : Connected (function.apply calculator type arguments) := by
  refine Settles.bind (lift _) fun result _ => ?_
  split <;> trivial

end Connected

section

variable {program : Program} {calculator : Calculator} {slots arguments : List Value}
variable {parameters : List Ty} {call : Nat → List Value → Except EvalError Value}

/-- Calls of functions of the program miss nothing. -/
def Program.CallsConnected (program : Program) (call : Nat → List Value → Except EvalError Value) :
    Prop :=
  ∀ {index function values}, program.functions[index]? = some function →
    values.length = function.parameters.length → Connected (call index values)

theorem length_of_getElem?_eq_some {α : Type} {items : List α} {index : Nat} {item : α}
    (found : items[index]? = some item) : index < items.length :=
  (List.getElem?_eq_some_iff.mp found).1

mutual

theorem evalWith_connected (calls : program.CallsConnected call)
    (given : slots.length = program.slots.length) (applied : arguments.length = parameters.length) :
    ∀ (node : Node), (∀ inner ∈ node.subnodes, program.Links parameters inner) →
      Connected (node.evalWith calculator call slots arguments)
  | .constant value, _ => trivial
  | .slot index type, links => by
    obtain ⟨slot, found, -⟩ := links (.slot index type) (by simp [Node.subnodes])
    have bound : index < slots.length := given ▸ length_of_getElem?_eq_some found
    simp only [Node.evalWith, List.getElem?_eq_getElem bound]
    trivial
  | .parameter index type, links => by
    have found : parameters[index]? = some type :=
      links (.parameter index type) (by simp [Node.subnodes])
    have bound : index < arguments.length := applied ▸ length_of_getElem?_eq_some found
    simp only [Node.evalWith, List.getElem?_eq_getElem bound]
    trivial
  | .convert step operand, links => by
    simp only [Node.subnodes, List.forall_mem_cons] at links
    refine .bind (evalWith_connected calls given applied _ links.2) fun value _ => ?_
    exact Connected.lift _
  | .negate type operand, links => by
    simp only [Node.subnodes, List.forall_mem_cons] at links
    refine .bind (evalWith_connected calls given applied _ links.2) fun value _ => ?_
    exact Connected.negate value
  | .not operand, links => by
    simp only [Node.subnodes, List.forall_mem_cons] at links
    refine .bind (evalWith_connected calls given applied _ links.2) fun value _ => ?_
    exact .bind (Connected.lift _) fun _ _ => trivial
  | .factorial type operand, links => by
    simp only [Node.subnodes, List.forall_mem_cons] at links
    refine .bind (evalWith_connected calls given applied _ links.2) fun value _ => ?_
    exact Connected.factorial calculator type value
  | .arith op type left right, links => by
    simp only [Node.subnodes, List.forall_mem_cons, List.forall_mem_append] at links
    refine .bind (evalWith_connected calls given applied left links.2.1) fun first _ => ?_
    refine .bind (evalWith_connected calls given applied right links.2.2) fun second _ => ?_
    exact Connected.arith calculator op first second
  | .compare op left right, links => by
    simp only [Node.subnodes, List.forall_mem_cons, List.forall_mem_append] at links
    refine .bind (evalWith_connected calls given applied left links.2.1) fun first _ => ?_
    refine .bind (evalWith_connected calls given applied right links.2.2) fun second _ => ?_
    exact .bind (Connected.comparison op first second) fun _ _ => trivial
  | .logic op left right, links => by
    simp only [Node.subnodes, List.forall_mem_cons, List.forall_mem_append] at links
    refine .bind (evalWith_connected calls given applied left links.2.1) fun value _ => ?_
    refine .bind (Connected.lift _) fun first _ => ?_
    have second : Connected (do
        let value ← right.evalWith calculator call slots arguments
        EvalError.lift value.truth) :=
      .bind (evalWith_connected calls given applied right links.2.2)
        fun _ _ => Connected.lift _
    exact .bind (.connect (fun _ => second) fun _ => rfl) fun _ _ => trivial
  | .choose type condition positive negative, links => by
    simp only [Node.subnodes, List.forall_mem_cons, List.forall_mem_append] at links
    refine .bind (evalWith_connected calls given applied condition links.2.1.1) fun value _ => ?_
    refine .bind (Connected.lift _) fun truth _ => ?_
    split
    · exact evalWith_connected calls given applied positive links.2.1.2
    · exact evalWith_connected calls given applied negative links.2.2
  | .member name type target, links => by
    simp only [Node.subnodes, List.forall_mem_cons] at links
    refine .bind (evalWith_connected calls given applied _ links.2) fun value _ => ?_
    exact Connected.lift _
  | .native function type operands, links => by
    simp only [Node.subnodes, List.forall_mem_cons] at links
    refine .bind (evalAllWith_connected calls given applied operands links.2) fun values _ => ?_
    exact Connected.native calculator function type values
  | .call index type operands, links => by
    simp only [Node.subnodes, List.forall_mem_cons] at links
    obtain ⟨⟨function, found, types, -⟩, links⟩ := links
    refine .bind (evalAllWith_connected calls given applied operands links) fun values size => ?_
    refine calls found ?_
    rw [size, ← types, List.length_map]
  | .guard restriction condition body, links => by
    simp only [Node.subnodes, List.forall_mem_cons, List.forall_mem_append] at links
    refine .bind (evalWith_connected calls given applied condition links.2.1) fun value _ => ?_
    refine .bind (Connected.lift _) fun truth _ => ?_
    split
    · rfl
    · exact evalWith_connected calls given applied body links.2.2

theorem evalAllWith_connected (calls : program.CallsConnected call)
    (given : slots.length = program.slots.length) (applied : arguments.length = parameters.length) :
    ∀ (nodes : List Node), (∀ inner ∈ Node.subnodesAll nodes, program.Links parameters inner) →
      Settles (fun values => values.length = nodes.length)
        (fun error => error.isDangling = false)
        (Node.evalAllWith calculator call slots arguments nodes)
  | [], _ => rfl
  | node :: rest, links => by
    refine .bind (evalWith_connected calls given applied node
      fun inner member => links inner (by simp [Node.subnodesAll, member])) fun value _ => ?_
    refine .bind (evalAllWith_connected calls given applied rest
      fun inner member => links inner (by simp [Node.subnodesAll, member])) fun values size => ?_
    exact congrArg (· + 1) size

end

theorem Program.Closed.call_connected (closed : program.Closed) (machine : Machine)
    (given : slots.length = program.slots.length) (remaining : Nat) :
    program.CallsConnected (machine.call program slots remaining) := by
  induction remaining with
  | zero =>
    intro index function values found size
    simp only [Machine.call, found]
    rfl
  | succ remaining ih =>
    intro index function values found size
    simp only [Machine.call, found]
    exact evalWith_connected ih given size function.body
      (closed.bodies function (List.mem_of_getElem? found))

theorem Program.Closed.evaluate_connected (closed : program.Closed) (machine : Machine)
    (slots : List Value) : Connected (machine.evaluate program slots) := by
  unfold Machine.evaluate
  split
  · rfl
  · rename_i given
    have given : slots.length = program.slots.length := by simpa using given
    exact evalWith_connected (closed.call_connected machine given _) given rfl program.root
      closed.root

end

theorem mem_subnodes_coerce {catalog : Catalog} {source node inner : Node} {type : Ty}
    (coerced : catalog.coerce source type = .ok node) (member : inner ∈ node.subnodes) :
    inner ∈ source.subnodes ∨ (∃ step operand, inner = .convert step operand) ∨
      ∃ value, inner = .constant value := by
  rcases Catalog.coerce_cases coerced with ⟨same, -⟩ | ⟨path, -, same | ⟨_, value, -, same, -⟩⟩
  · exact .inl (same ▸ member)
  · rw [same] at member
    rcases Node.mem_subnodes_converted member with inside | added
    · exact .inl inside
    · exact .inr (.inl added)
  · rw [same] at member
    exact .inr (.inr ⟨value, by simpa [Node.subnodes] using member⟩)

/-- The program has the inputs of the linkage, and functions of its signatures. -/
structure Linkage.Matches (linkage : Linkage) (program : Program) : Prop where
  slots : program.slots = linkage.slots
  functions : ∀ {index : Nat} {parameters : List Ty} {type : Ty},
    linkage.functions[index]? = some (parameters, type) →
    ∃ function : Function, program.functions[index]? = some function ∧
      function.parameters = parameters ∧ function.returnType = type

theorem Built.links {compiler : Compiler} {linkage : Linkage} {program : Program}
    {parameters : List Ty} {node : Node} (matching : linkage.Matches program)
    (built : Built compiler linkage parameters node) :
    ∀ inner ∈ node.subnodes, program.Links parameters inner := by
  induction built with
  | literal | text | embedded => simp [Node.subnodes, Program.Links]
  | slot found =>
    simp only [Node.subnodes, List.forall_mem_singleton]
    exact ⟨_, matching.slots ▸ found, rfl⟩
  | parameter found =>
    simp only [Node.subnodes, List.forall_mem_singleton]
    exact found
  | coerced _ coerced ih =>
    intro inner member
    rcases mem_subnodes_coerce coerced member with inside | ⟨_, _, rfl⟩ | ⟨_, rfl⟩
    · exact ih inner inside
    · trivial
    · trivial
  | negate _ _ _ ih | factorial _ _ _ ih | not _ _ ih | member _ _ ih =>
    simp only [Node.subnodes, List.forall_mem_cons]
    exact ⟨trivial, ih⟩
  | arith _ _ _ _ _ _ leftIH rightIH | compare _ _ _ _ _ leftIH rightIH
  | logic _ _ _ _ _ leftIH rightIH | guard _ _ _ leftIH rightIH =>
    simp only [Node.subnodes, List.forall_mem_cons, List.forall_mem_append]
    exact ⟨trivial, leftIH, rightIH⟩
  | choose _ _ _ _ _ _ conditionIH positiveIH negativeIH =>
    simp only [Node.subnodes, List.forall_mem_cons, List.forall_mem_append]
    exact ⟨trivial, ⟨conditionIH, positiveIH⟩, negativeIH⟩
  | math _ _ _ _ _ ih | host _ _ _ ih =>
    simp only [Node.subnodes, List.forall_mem_cons]
    refine ⟨trivial, fun inner member => ?_⟩
    obtain ⟨argument, listed, inside⟩ := Node.mem_subnodesAll.mp member
    exact ih argument listed inner inside
  | call declared _ ih =>
    simp only [Node.subnodes, List.forall_mem_cons]
    obtain ⟨function, found, sameParameters, sameType⟩ := matching.functions declared
    refine ⟨⟨function, found, sameParameters.symm, sameType.symm⟩, fun inner member => ?_⟩
    obtain ⟨argument, listed, inside⟩ := Node.mem_subnodesAll.mp member
    exact ih argument listed inner inside

theorem Linkage.Describes.matches {compiler : Compiler} {linkage : Linkage} {state : LowerState}
    {program : Program} (described : linkage.Describes compiler state)
    (slots : program.slots = state.slots)
    (functions : state.functions.bodies = program.functions.map some) :
    linkage.Matches program where
  slots := slots.trans described.slots
  functions := by
    intro index parameters type declared
    obtain ⟨function, found, sameParameters, sameType, -⟩ := described.function functions declared
    exact ⟨function, found, sameParameters, sameType⟩

/-- Lowering leaves no function without a body, and the program it gives is closed. -/
theorem Compiler.compileWith_closed (compiler : Compiler) (regular : compiler.Regular)
    (spanOf : Expr → Option Span) (source : Option String) (expr : Expr) {root : Node}
    {state : LowerState}
    (lowered : compiler.lowerGuarded spanOf (compiler.simplified expr).2
      (compiler.simplified expr).1 {} = (.ok root, state)) :
    ∃ program, state.functions.finish = .ok program.functions ∧
      compiler.compileWith spanOf source expr = .ok program ∧ program.Closed ∧
      ∀ (machine : Machine) (slots : List Value) (error : EvalError),
        machine.evaluate program slots = .error error → error.isDangling = false := by
  obtain ⟨linkage, functions, described, bodies, built, -⟩ :=
    compiler.lowerGuarded_finishes regular lowered
  have finished := FunctionTable.finish_eq bodies
  let program : Program := {
    root, functions, slots := state.slots, source
    restrictions := (compiler.simplified expr).2.map Expr.display }
  have matching : linkage.Matches program := described.matches rfl bodies
  have closed : program.Closed := {
    names := by
      have names := described.names
      rwa [← described.slots] at names
    root := built.links matching
    bodies := by
      intro function member
      obtain ⟨index, found⟩ := List.mem_iff_getElem?.mp member
      have stored : state.functions.bodies[index]? = some (some function) := by
        rw [bodies, List.getElem?_map, found]
        rfl
      exact (described.bodies stored).2.1.links matching }
  refine ⟨program, finished, ?_, closed, fun machine slots error failed =>
    (closed.evaluate_connected machine slots).of_error failed⟩
  simp only [compileWith, lowered, finished]
  rfl

/-- A function that calls itself, on an input of the program. -/
def countdown : Expr :=
  .define "f" ["n"]
    (.call "if"
      [.binary .atMost [.var "n", .number (.ofInt 1)],
        .number (.ofInt 1),
        .binary .mul
          [.var "n", .call "f" [.binary .sub [.var "n", .number (.ofInt 1)]] true]]
      false)
    (.call "f" [.var "x"] true)

def countdownCompiler : Compiler where
  options := { inputs := [("x", .int32)], expectReturn := .int32 }

theorem countdown_closed :
    countdownCompiler.Regular ∧
      ∃ (root : Node) (state : LowerState) (program : Program),
        countdownCompiler.lowerGuarded (fun _ => none)
          (countdownCompiler.simplified countdown).2
          (countdownCompiler.simplified countdown).1 {} = (.ok root, state) ∧
        state.functions.finish = .ok program.functions ∧
        countdownCompiler.compile countdown = .ok program ∧ program.Closed := by
  have regular : countdownCompiler.Regular := ⟨by decide, by decide⟩
  refine ⟨regular, ?_⟩
  have succeeds : (countdownCompiler.lowerGuarded (fun _ => none)
      (countdownCompiler.simplified countdown).2
      (countdownCompiler.simplified countdown).1 {}).1.isOk = true := by decide +kernel
  cases lowered : countdownCompiler.lowerGuarded (fun _ => none)
      (countdownCompiler.simplified countdown).2
      (countdownCompiler.simplified countdown).1 {} with
  | mk outcome state =>
    rw [lowered] at succeeds
    cases outcome with
    | error error => cases succeeds
    | ok root =>
      obtain ⟨program, finished, compiled, closed, -⟩ :=
        countdownCompiler.compileWith_closed regular (fun _ => none) none countdown lowered
      exact ⟨root, state, program, rfl, finished, compiled, closed⟩

end Formulary
