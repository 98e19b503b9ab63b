import Formulary.Proofs.Expr.Names

namespace Formulary

/-! The meaning of trees with calls by name, over any interpretation of operators and builtin
    functions. The body of a definition sees its own parameters, the inputs, itself and the
    functions that are visible where it was made. A recursive function is unfolded to some depth;
    what needs more has no value. -/

universe u

/-- What numbers, texts, operators, members and builtin functions stand for. An operand without
    a value is `none`, so an operation need not depend on all of its operands. -/
structure Interpretation (V : Type u) where
  number : Decimal → Option V
  text : String → Option V
  unary : UnaryOperator → Option V → Option V
  binary : Operator → List (Option V) → Option V
  member : String → Option V → Option V
  builtin : String → List (Option V) → Option V

/-- Values of the variables. -/
abbrev Assignment (V : Type u) := String → Option V

/-- A function of arguments that are not evaluated before the call. -/
abbrev ByName (V : Type u) := List (Option V) → Option V

/-- The functions that are visible at a place, by their names. -/
abbrev Visible (V : Type u) := String → Option (ByName V)

variable {V : Type u}

/-- Parameters hide inputs of the same name; of equal parameters the last counts. -/
def Assignment.bind (inputs : Assignment V) (parameters : List String)
    (values : List (Option V)) : Assignment V :=
  fun name => ((parameters.zip values).reverse.lookup name).getD (inputs name)

def Visible.define (functions : Visible V) (name : String) (function : ByName V) : Visible V :=
  fun other => if other = name then some function else functions other

/-- A function given by its body, which may call the function `depth` levels deep. -/
def ByName.unfold (body : ByName V → ByName V) : Nat → ByName V
  | 0 => body fun _ => none
  | depth + 1 => body (unfold body depth)

/-- The function of a definition, where the body calls `function` by the name of the
    definition. -/
def ByName.entered (inputs : Assignment V) (functions : Visible V) (name : String)
    (parameters : List String) (body : Visible V → Assignment V → Option V)
    (function : ByName V) : ByName V :=
  fun values =>
    if values.length = parameters.length then
      body (functions.define name function) (inputs.bind parameters values)
    else none

/-- A call goes to the visible function of the name and, without a prime, to the builtin one where
    there is none. -/
def Interpretation.apply (interpretation : Interpretation V) (functions : Visible V)
    (name : String) (primed : Bool) (values : List (Option V)) : Option V :=
  match functions name with
  | some function => function values
  | none => if primed then none else interpretation.builtin name values

namespace Expr

mutual

/-- The meaning of a tree, with recursive functions unfolded `depth` levels deep. -/
def meaning (interpretation : Interpretation V) (inputs : Assignment V) (depth : Nat) :
    Expr → Visible V → Assignment V → Option V
  | number value, _, _ => interpretation.number value
  | text content, _, _ => interpretation.text content
  | var name, _, assignment => assignment name
  | unary op operand, functions, assignment =>
    interpretation.unary op (meaning interpretation inputs depth operand functions assignment)
  | binary op operands, functions, assignment =>
    interpretation.binary op
      (meaningAll interpretation inputs depth operands functions assignment)
  | member target name, functions, assignment =>
    interpretation.member name (meaning interpretation inputs depth target functions assignment)
  | call name arguments primed, functions, assignment =>
    interpretation.apply functions name primed
      (meaningAll interpretation inputs depth arguments functions assignment)
  | define name parameters body value, functions, assignment =>
    let function := ByName.unfold (ByName.entered inputs functions name parameters
      (meaning interpretation inputs depth body)) depth
    meaning interpretation inputs depth value (functions.define name function) assignment

def meaningAll (interpretation : Interpretation V) (inputs : Assignment V) (depth : Nat) :
    List Expr → Visible V → Assignment V → List (Option V)
  | [], _, _ => []
  | expr :: rest, functions, assignment =>
    meaning interpretation inputs depth expr functions assignment ::
      meaningAll interpretation inputs depth rest functions assignment

end

/-- The meaning of a formula: no function is visible at its root, and its variables are inputs. -/
def meansWithin (interpretation : Interpretation V) (inputs : Assignment V) (depth : Nat)
    (expr : Expr) : Option V :=
  expr.meaning interpretation inputs depth (fun _ => none) inputs

end Expr

/-! Functions that a tree does not call make no difference to its meaning. -/

@[simp] theorem Visible.define_self (functions : Visible V) (name : String)
    (function : ByName V) : functions.define name function name = some function := by
  simp [Visible.define]

theorem Visible.define_other (functions : Visible V) {name other : String}
    (different : other ≠ name) (function : ByName V) :
    functions.define name function other = functions other := by
  simp [Visible.define, different]

namespace Visible

/-- The same functions by the names of a list. -/
def AgreeOn (names : List String) (functions others : Visible V) : Prop :=
  ∀ name ∈ names, functions name = others name

variable {names : List String} {functions others : Visible V}

theorem AgreeOn.refl (names : List String) (functions : Visible V) :
    AgreeOn names functions functions := fun _ _ => rfl

theorem AgreeOn.mono {fewer : List String} (agree : AgreeOn names functions others)
    (subset : fewer ⊆ names) : AgreeOn fewer functions others :=
  fun name member => agree name (subset member)

theorem AgreeOn.define (agree : AgreeOn names functions others) (name : String)
    (function : ByName V) :
    AgreeOn names (functions.define name function) (others.define name function) := by
  intro other member
  by_cases same : other = name
  · rw [same, define_self, define_self]
  · rw [define_other functions same, define_other others same]
    exact agree other member

/-- A function under a name that is not in the list. -/
theorem AgreeOn.define_right {name : String} (agree : AgreeOn names functions others)
    (absent : name ∉ names) (function : ByName V) :
    AgreeOn names functions (others.define name function) := by
  intro other member
  have different : other ≠ name := fun same => absent (same ▸ member)
  rw [define_other others different]
  exact agree other member

end Visible

theorem ByName.unfold_entered_congr {inputs : Assignment V} {functions others : Visible V}
    {name : String} {parameters : List String} {body body' : Visible V → Assignment V → Option V}
    (same : ∀ function values, body (functions.define name function)
      (inputs.bind parameters values) = body' (others.define name function)
        (inputs.bind parameters values)) (depth : Nat) :
    ByName.unfold (ByName.entered inputs functions name parameters body) depth =
      ByName.unfold (ByName.entered inputs others name parameters body') depth := by
  have step : ByName.entered inputs functions name parameters body =
      ByName.entered inputs others name parameters body' := by
    funext function values
    rw [ByName.entered, ByName.entered, same function values]
  rw [step]

/-- A function that does not call itself is the same at every depth. -/
theorem ByName.unfold_of_const {body : ByName V → ByName V} {function : ByName V}
    (const : ∀ other, body other = function) (depth : Nat) :
    ByName.unfold body depth = function := by
  cases depth <;> exact const _

namespace Expr

variable {interpretation : Interpretation V} {inputs : Assignment V} {depth : Nat}

mutual

theorem meaning_congr : ∀ (expr : Expr) {functions others : Visible V} (assignment : Assignment V),
    functions.AgreeOn expr.callees others →
      expr.meaning interpretation inputs depth functions assignment =
        expr.meaning interpretation inputs depth others assignment
  | number _, _, _, _, _ | text _, _, _, _, _ | var _, _, _, _, _ => rfl
  | unary op operand, _, _, assignment, agree => by
    have same := meaning_congr operand assignment agree
    rw [meaning, meaning, same]
  | binary op operands, _, _, assignment, agree => by
    rw [callees_binary] at agree
    have same := meaningAll_congr operands assignment agree
    rw [meaning, meaning, same]
  | member target name, _, _, assignment, agree => by
    have same := meaning_congr target assignment agree
    rw [meaning, meaning, same]
  | call name arguments primed, functions, others, assignment, agree => by
    rw [callees_call] at agree
    have called : functions name = others name := agree name (by simp)
    have same := meaningAll_congr arguments assignment
      (agree.mono (List.subset_cons_self _ _))
    rw [meaning, meaning, same, Interpretation.apply, Interpretation.apply, called]
  | define name parameters body value, functions, others, assignment, agree => by
    rw [callees_define] at agree
    have bodies : ∀ function values,
        body.meaning interpretation inputs depth (functions.define name function)
            (inputs.bind parameters values) =
          body.meaning interpretation inputs depth (others.define name function)
            (inputs.bind parameters values) := fun function values =>
      meaning_congr body _ ((agree.mono (List.subset_append_left _ _)).define name function)
    rw [meaning, meaning, ByName.unfold_entered_congr bodies]
    exact meaning_congr value assignment
      ((agree.mono (List.subset_append_right _ _)).define name _)

theorem meaningAll_congr : ∀ (exprs : List Expr) {functions others : Visible V}
    (assignment : Assignment V), functions.AgreeOn (exprs.flatMap callees) others →
      meaningAll interpretation inputs depth exprs functions assignment =
        meaningAll interpretation inputs depth exprs others assignment
  | [], _, _, _, _ => rfl
  | expr :: rest, _, _, assignment, agree => by
    rw [List.flatMap_cons] at agree
    rw [meaningAll, meaningAll,
      meaning_congr expr assignment (agree.mono (List.subset_append_left _ _)),
      meaningAll_congr rest assignment (agree.mono (List.subset_append_right _ _))]

end

theorem meaningAll_eq_map (exprs : List Expr) (functions : Visible V)
    (assignment : Assignment V) :
    meaningAll interpretation inputs depth exprs functions assignment =
      exprs.map fun expr => expr.meaning interpretation inputs depth functions assignment := by
  induction exprs with
  | nil => rfl
  | cons expr rest ih => rw [meaningAll, ih, List.map_cons]

end Expr

end Formulary
