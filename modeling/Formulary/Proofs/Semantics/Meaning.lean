import Formulary.Evaluation.Machine
import Formulary.Proofs.Calculator.Congruence
import Formulary.Proofs.Lowering.Effect
import Formulary.Proofs.Semantics.Direct

namespace Formulary

/-! When a node computes the value of a tree. Nodes refer to inputs and functions by number, so
    this is said relative to a layout that tells what the numbers stand for. -/

/-- An evaluation of nodes gives the decimal that is the value of the tree, or fails in the same
    way. -/
abbrev Agrees (evaluated : Except EvalError Value) (value : Except EvalError Decimal) : Prop :=
  EvalError.Alike (fun result d => result = .decimal d) evaluated value

theorem Agrees.map (outcome : Except EvalError Decimal) :
    Agrees (outcome.map .decimal) outcome := by
  cases outcome <;> rfl

theorem Agrees.eq_ok {evaluated : Except EvalError Value} {value : Except EvalError Decimal}
    {d : Decimal} (agrees : Agrees evaluated value) (done : value = .ok d) :
    evaluated = .ok (.decimal d) := by
  subst done
  cases evaluated with
  | ok result => exact congrArg Except.ok agrees
  | error error => exact agrees.elim

theorem Agrees.lift_map {outcome outcome' : Except Fault Decimal}
    (alike : Fault.Alike Eq outcome outcome') :
    Agrees ((EvalError.lift outcome).map .decimal) (EvalError.lift outcome') := by
  cases outcome with
  | ok value =>
    obtain ⟨value', rfl, rfl⟩ := alike.of_ok rfl
    rfl
  | error fault =>
    have lifted := EvalError.Alike.lift alike
    cases outcome' with
    | ok value => exact alike.elim
    | error other => exact lifted

/-- What the numbers in nodes stand for. A definition is known together with the definitions
    that its body can call. -/
structure Layout where
  slots : List Slot
  /-- Definitions by their numbers. -/
  closures : List (Definition × List Definition)
  /-- For each function the number of its definition. -/
  functions : List Nat

namespace Layout

instance : Preorder Layout where
  le earlier later := earlier.slots <+: later.slots ∧ earlier.closures <+: later.closures ∧
    earlier.functions <+: later.functions
  le_refl _ := ⟨List.prefix_refl _, List.prefix_refl _, List.prefix_refl _⟩
  le_trans _ _ _ left right :=
    ⟨left.1.trans right.1, left.2.1.trans right.2.1, left.2.2.trans right.2.2⟩

/-- The definition of a function. -/
def closure? (layout : Layout) (index : Nat) : Option (Definition × List Definition) := do
  let number ← layout.functions[index]?
  layout.closures[number]?

/-- Inputs and functions for nodes, with those for trees that they agree with. -/
structure Host (layout : Layout) where
  slots : List Value
  call : Nat → List Value → Except EvalError Value
  inputs : String → Option Decimal
  enter : Definition → List Definition → List Decimal → Except EvalError Decimal
  input : ∀ ⦃index : Nat⦄ ⦃slot : Slot⦄, layout.slots[index]? = some slot →
    ∃ d, inputs slot.name = some d ∧ slots[index]? = some (.decimal d)
  function : ∀ ⦃index definition below⦄, layout.closure? index = some (definition, below) →
    ∀ values : List Decimal, values.length = definition.parameters.length →
      Agrees (call index (values.map .decimal)) (enter definition below values)

theorem closure?_of_le {layout later : Layout} (order : layout ≤ later) {index : Nat}
    {closure : Definition × List Definition} (found : layout.closure? index = some closure) :
    later.closure? index = some closure := by
  obtain ⟨number, listed, known⟩ := Option.bind_eq_some_iff.mp found
  exact Option.bind_eq_some_iff.mpr
    ⟨number, getElem?_of_initial order.2.2 listed, getElem?_of_initial order.2.1 known⟩

def Host.earlier {layout later : Layout} (order : layout ≤ later) (host : later.Host) :
    layout.Host where
  slots := host.slots
  call := host.call
  inputs := host.inputs
  enter := host.enter
  input _ _ found := host.input (getElem?_of_initial order.1 found)
  function _ _ _ found := host.function (closure?_of_le order found)

end Layout

namespace Scope

/-- Decimal parameters as a scope lists them. -/
def decimals (names : List String) : List (String × Nat × Ty) :=
  (names.zip (List.replicate names.length Ty.decimal).zipIdx).reverse.map
    fun (name, type, index) => (name, index, type)

theorem decimals_concat (names : List String) (last : String) :
    decimals (names ++ [last]) = (last, names.length, .decimal) :: decimals names := by
  have types : (List.replicate (names ++ [last]).length Ty.decimal).zipIdx =
      (List.replicate names.length Ty.decimal).zipIdx ++ [(.decimal, names.length)] := by
    rw [List.length_append, List.length_singleton, ← List.replicate_append_replicate,
      List.zipIdx_append]
    simp
  unfold decimals
  rw [types, List.zip_append (by simp)]
  simp

theorem of_lookup_decimals {names : List String} {name : String} {index : Nat} {type : Ty}
    (found : (decimals names).lookup name = some (index, type)) :
    index < names.length ∧ type = .decimal := by
  obtain ⟨before, after, equal, -⟩ := List.lookup_eq_some_iff.mp found
  have member : (name, index, type) ∈ decimals names := by simp [equal]
  obtain ⟨⟨other, kind, position⟩, listed, same⟩ := List.mem_map.mp member
  cases same
  have typed := List.mem_zipIdx_iff_getElem?.mp
    (List.of_mem_zip (List.mem_reverse.mp listed)).2
  rw [List.getElem?_replicate] at typed
  split at typed
  · rename_i bound
    exact ⟨bound, (Option.some.inj typed).symm⟩
  · cases typed

theorem lookup_decimals {names : List String} {values : List Decimal}
    (sized : values.length = names.length) (name : String) :
    (names.zip values).reverse.lookup name =
      ((decimals names).lookup name).bind fun entry => values[entry.1]? := by
  induction names using List.reverseRecOn generalizing values with
  | nil => rfl
  | append_singleton names last ih =>
    obtain ⟨values, value, rfl⟩ : ∃ initial final, values = initial ++ [final] := by
      have nonempty : values ≠ [] := by
        rintro rfl
        simp at sized
      exact ⟨_, _, (List.dropLast_append_getLast nonempty).symm⟩
    have sizes : values.length = names.length := by simpa using sized
    rw [List.zip_append sizes.symm, List.reverse_append, decimals_concat]
    change ((last, value) :: (names.zip values).reverse).lookup name = _
    rw [List.lookup_cons, List.lookup_cons]
    split
    · simp [← sizes]
    · rw [ih sizes]
      cases found : (decimals names).lookup name with
      | none => rfl
      | some entry =>
        have bound := (of_lookup_decimals found).1
        simp only [Option.bind_some]
        rw [List.getElem?_append_left (by omega)]

theorem lookup_decimals_none {names : List String} {name : String}
    (missing : (decimals names).lookup name = none) : name ∉ names := by
  induction names using List.reverseRecOn with
  | nil => simp
  | append_singleton names last ih =>
    rw [decimals_concat, List.lookup_cons] at missing
    split at missing
    · cases missing
    · rename_i different
      simpa using ⟨ih missing, by simpa using different⟩

end Scope

/-- The node has the value of the tree wherever the parameters have the given names. -/
structure Means (calculator : Calculator) (layout : Layout) (names : List String)
    (definitions : List Definition) (node : Node) (expr : Expr) : Prop where
  ty : node.ty = .decimal
  agrees : ∀ (host : layout.Host) (values : List Decimal), values.length = names.length →
    Agrees (node.evalWith calculator host.call host.slots (values.map .decimal))
      (expr.valueWith calculator host.inputs host.enter (.ofValues names values definitions))

namespace Means

variable {calculator : Calculator} {layout : Layout} {names : List String}
variable {definitions : List Definition} {node : Node} {expr : Expr}

theorem later {last : Layout} (means : Means calculator layout names definitions node expr)
    (order : layout ≤ last) : Means calculator last names definitions node expr :=
  ⟨means.ty, fun host => means.agrees (host.earlier order)⟩

theorem number (value : Decimal) :
    Means calculator layout names definitions (.constant (.decimal value)) (.number value) :=
  ⟨rfl, fun _ _ _ => rfl⟩

theorem slot {index : Nat} {slot : Slot} (found : layout.slots[index]? = some slot)
    (unbound : slot.name ∉ names) :
    Means calculator layout names definitions (.slot index .decimal) (.var slot.name) := by
  refine ⟨rfl, fun host values _ => ?_⟩
  obtain ⟨d, bound, given⟩ := host.input found
  have local_ : ((names.zip values).reverse).lookup slot.name = none := by
    rw [List.lookup_eq_none_iff]
    intro entry member
    have named := (List.of_mem_zip (List.mem_reverse.mp member)).1
    have different : slot.name ≠ entry.1 := fun same => unbound (same ▸ named)
    simpa using different
  simp only [Node.evalWith, given, Expr.valueWith, Frame.ofValues, local_, Option.none_or, bound]
  rfl

theorem negate (means : Means calculator layout names definitions node expr) :
    Means calculator layout names definitions (.negate node.ty node) (.unary .negate expr) := by
  refine ⟨means.ty, fun host values sized => ?_⟩
  simp only [Node.evalWith, Expr.valueWith]
  refine Matches.bind (means.agrees host values sized) ?_
  rintro _ d rfl
  rfl

theorem factorial (means : Means calculator layout names definitions node expr) :
    Means calculator layout names definitions (.factorial node.ty node)
      (.unary .factorial expr) := by
  refine ⟨means.ty, fun host values sized => ?_⟩
  simp only [Node.evalWith, Expr.valueWith]
  refine Matches.bind (means.agrees host values sized) ?_
  rintro _ d rfl
  rw [means.ty]
  change Agrees (EvalError.lift (do Value.ofDecimal (← calculator.factorial d) .decimal)) _
  cases calculator.factorial d <;> rfl

theorem parameter {name : String} {index : Nat} {type : Ty}
    (found : (Scope.decimals names).lookup name = some (index, type)) :
    Means calculator layout names definitions (.parameter index type) (.var name) := by
  obtain ⟨bound, decimal⟩ := Scope.of_lookup_decimals found
  refine ⟨decimal, fun host values sized => ?_⟩
  have given : values[index]? = some (values.get ⟨index, sized ▸ bound⟩) := by simp
  have known : (names.zip values).reverse.lookup name = values[index]? := by
    rw [Scope.lookup_decimals sized, found]
    rfl
  simp only [Node.evalWith, Expr.valueWith, Frame.ofValues, known, given, List.getElem?_map,
    Option.map_some, Option.some_or]
  rfl

abbrev All (calculator : Calculator) (layout : Layout) (names : List String)
    (definitions : List Definition) (nodes : List Node) (exprs : List Expr) : Prop :=
  List.Forall₂ (Means calculator layout names definitions) nodes exprs

variable {nodes : List Node} {exprs : List Expr}

theorem All.later {last : Layout} (means : All calculator layout names definitions nodes exprs)
    (order : layout ≤ last) : All calculator last names definitions nodes exprs :=
  List.Forall₂.imp (fun _ _ one => Means.later one order) means

theorem All.agrees (means : All calculator layout names definitions nodes exprs)
    (host : layout.Host) (values : List Decimal) (sized : values.length = names.length) :
    EvalError.Alike (fun results ds => results = ds.map .decimal ∧ ds.length = exprs.length)
      (Node.evalAllWith calculator host.call host.slots (values.map .decimal) nodes)
      (Expr.valuesWith calculator host.inputs host.enter exprs
        (.ofValues names values definitions)) := by
  induction means with
  | nil => exact ⟨rfl, rfl⟩
  | cons first _ ih =>
    simp only [Node.evalAllWith, Expr.valuesWith]
    refine Matches.bind (first.agrees host values sized) ?_
    rintro _ d rfl
    refine Matches.bind ih ?_
    rintro _ ds ⟨rfl, length⟩
    exact ⟨rfl, congrArg (· + 1) length⟩

theorem foldl_agrees (means : All calculator layout names definitions nodes exprs)
    (op : Operator) (host : layout.Host) (values : List Decimal)
    (sized : values.length = names.length) {node : Node} {outcome : Except EvalError Decimal}
    (agrees : Agrees (node.evalWith calculator host.call host.slots (values.map .decimal))
      outcome) :
    Agrees ((nodes.foldl (.arith op .decimal) node).evalWith calculator host.call host.slots
        (values.map .decimal))
      (outcome >>= fun value => Expr.combineWith calculator host.inputs host.enter op value exprs
        (.ofValues names values definitions)) := by
  induction means generalizing node outcome with
  | nil =>
    simp only [List.foldl_nil, Expr.combineWith]
    cases outcome <;> exact agrees
  | @cons next expr nodes exprs first _ ih =>
    have combined : Agrees
        ((Node.arith op .decimal node next).evalWith calculator host.call host.slots
          (values.map .decimal))
        (outcome >>= fun value =>
          expr.valueWith calculator host.inputs host.enter
            (.ofValues names values definitions) >>= fun operand =>
          op.combine calculator value operand) := by
      simp only [Node.evalWith]
      refine Matches.bind agrees ?_
      rintro _ value rfl
      refine Matches.bind (first.agrees host values sized) ?_
      rintro _ operand rfl
      rw [← calculator.arith_eq]
      exact Agrees.map (calculator.arith op value operand)
    have all := ih combined
    simp only [bind_assoc] at all
    simpa only [List.foldl_cons, Expr.combineWith] using all

theorem arith {first : Node} {head : Expr} (op : Operator)
    (means : All calculator layout names definitions (first :: nodes) (head :: exprs)) :
    Means calculator layout names definitions (nodes.foldl (.arith op .decimal) first)
      (.binary op (head :: exprs)) := by
  obtain ⟨headMeans, restMeans⟩ := List.forall₂_cons.mp means
  refine ⟨?_, fun host values sized => ?_⟩
  · rcases nodes.eq_nil_or_concat with rfl | ⟨initial, last, rfl⟩
    · exact headMeans.ty
    · rw [List.concat_eq_append, List.foldl_append]
      rfl
  · simp only [Expr.valueWith]
    exact foldl_agrees restMeans op host values sized (headMeans.agrees host values sized)

theorem power {base exponent : Node} {bases : List Expr} (nonempty : bases ≠ [])
    (baseMeans : Means calculator layout names definitions base (.binary .power bases))
    (exponentMeans : Means calculator layout names definitions exponent expr) :
    Means calculator layout names definitions (.arith .power .decimal base exponent)
      (.binary .power (bases ++ [expr])) := by
  refine ⟨rfl, fun host values sized => ?_⟩
  rw [Expr.valueWith_concat .power nonempty]
  simp only [Node.evalWith]
  refine Matches.bind (baseMeans.agrees host values sized) ?_
  rintro _ value rfl
  refine Matches.bind (exponentMeans.agrees host values sized) ?_
  rintro _ operand rfl
  rw [← calculator.arith_eq]
  exact Agrees.map (calculator.arith .power value operand)

theorem literalPower {base : Node} {bases : List Expr} {literal exponent : Decimal}
    (nonempty : bases ≠ []) (same : Decimal.Same exponent literal)
    (baseMeans : Means calculator layout names definitions base (.binary .power bases)) :
    Means calculator layout names definitions
      (.arith .power .decimal base (.constant (.decimal exponent)))
      (.binary .power (bases ++ [.number literal])) := by
  refine ⟨rfl, fun host values sized => ?_⟩
  rw [Expr.valueWith_concat .power nonempty]
  simp only [Node.evalWith]
  refine Matches.bind (baseMeans.agrees host values sized) ?_
  rintro _ value rfl
  exact Agrees.lift_map (calculator.pow_exponent value same)

theorem native {name : String} {function : MathFunction}
    (means : All calculator layout names definitions nodes exprs)
    (hidden : Definition.visible name definitions = [])
    (named : MathFunction.ofName? name = some function) :
    Means calculator layout names definitions (.native (.math function) .decimal nodes)
      (.call name exprs false) := by
  refine ⟨rfl, fun host values sized => ?_⟩
  simp only [Node.evalWith, Expr.valueWith]
  refine Matches.bind (means.agrees host values sized) ?_
  rintro _ arguments ⟨rfl, -⟩
  simp only [Frame.ofValues, Definition.applyNamed, hidden, named, Bool.false_eq_true, if_false,
    Native.apply, MathFunction.value]
  cases function.apply calculator (arguments.map .decimal) with
  | error fault => rfl
  | ok result => cases result <;> rfl

theorem call {name : String} {primed : Bool} {index : Nat} {definition : Definition}
    {below : List Definition} (means : All calculator layout names definitions nodes exprs)
    (seen : Definition.visible name definitions = definition :: below)
    (arity : exprs.length = definition.parameters.length)
    (known : layout.closure? index = some (definition, below)) :
    Means calculator layout names definitions (.call index .decimal nodes)
      (.call name exprs primed) := by
  refine ⟨rfl, fun host values sized => ?_⟩
  simp only [Node.evalWith, Expr.valueWith]
  refine Matches.bind (means.agrees host values sized) ?_
  rintro _ arguments ⟨rfl, length⟩
  simp only [Frame.ofValues, Definition.applyNamed, seen, length.trans arity, if_true]
  exact host.function known arguments (length.trans arity)

theorem define {name : String} {parameters : List String} {body value : Expr}
    (means : Means calculator layout names (⟨name, parameters, body⟩ :: definitions) node value) :
    Means calculator layout names definitions node (.define name parameters body value) := by
  refine ⟨means.ty, fun host values sized => ?_⟩
  rw [Expr.valueWith]
  exact means.agrees host values sized

end Means

end Formulary
