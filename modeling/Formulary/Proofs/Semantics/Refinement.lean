import Mathlib.Data.List.Forall2
import Mathlib.Order.Defs.Unbundled
import Formulary.Proofs.Calculator.Congruence
import Formulary.Proofs.Expr.Names
import Formulary.Proofs.Semantics.Fragment

namespace Formulary

/-! When one tree can stand for another. Where the first has a value, the second has a value akin
    to it, under parameters with values that are akin. Being akin is being equal, or being the same
    number, or what else the operations respect. The definitions that the two trees see may
    differ, as long as the calls that are made have the same values; that is enough for calls of
    recursive definitions too, by induction on the depth of calls. -/

/-- Entries of the same names with related contents. -/
abbrev SameNames (related : α → β → Prop) (left : List (String × α)) (right : List (String × β)) :
    Prop :=
  List.Forall₂ (fun p q => p.1 = q.1 ∧ related p.2 q.2) left right

theorem SameNames.lookup_none {related : α → β → Prop} {left : List (String × α)}
    {right : List (String × β)} (same : SameNames related left right) {name : String}
    (absent : left.lookup name = none) : right.lookup name = none := by
  induction same with
  | nil => rfl
  | cons first _ ih =>
    rw [List.lookup_cons] at absent ⊢
    rw [← first.1]
    split at absent
    · cases absent
    · exact ih absent

theorem SameNames.lookup_some {related : α → β → Prop} {left : List (String × α)}
    {right : List (String × β)} (same : SameNames related left right) {name : String} {content : α}
    (found : left.lookup name = some content) :
    ∃ content', right.lookup name = some content' ∧ related content content' := by
  induction same with
  | nil => cases found
  | cons first _ ih =>
    rw [List.lookup_cons] at found ⊢
    rw [← first.1]
    split at found
    · cases found
      exact ⟨_, rfl, first.2⟩
    · exact ih found

theorem SameNames.zip {related : α → β → Prop} {names : List String} {values : List α}
    {values' : List β} (same : List.Forall₂ related values values') :
    SameNames related (names.zip values).reverse (names.zip values').reverse := by
  rw [SameNames, List.forall₂_reverse_iff]
  induction same generalizing names with
  | nil => simp
  | cons first _ ih =>
    cases names with
    | nil => simp
    | cons name rest => exact .cons ⟨rfl, first⟩ ih

open Decimal (Same)

theorem MathFunction.value_congr (calculator : Calculator) (function : MathFunction)
    {values values' : List Decimal} (same : List.Forall₂ Same values values') :
    EvalError.Alike Same (function.value calculator values)
      (function.value calculator values') := by
  have one : ∀ {left right : Except Fault Decimal} {next : Value → Except EvalError Decimal},
      (∀ result, next (.decimal result) = .ok result) → Fault.Alike Same left right →
      EvalError.Alike Same (EvalError.lift (left.map Value.decimal) >>= next)
        (EvalError.lift (right.map Value.decimal) >>= next) := by
    intro left right next returns alike
    cases left with
    | error fault =>
      cases right with
      | error other => exact congrArg (fun kind => (_, some kind)) alike
      | ok result => exact alike.elim
    | ok result =>
      obtain ⟨result', rfl, related⟩ := alike.of_ok rfl
      change EvalError.Alike Same (next (.decimal result)) (next (.decimal result'))
      rw [returns, returns]
      exact related
  unfold MathFunction.value MathFunction.apply
  rw [List.length_map, List.length_map, same.length_eq]
  split
  · rfl
  · rcases same with _ | ⟨first, _ | ⟨second, _ | _⟩⟩
    · rfl
    · exact one (fun _ => rfl) (applyDecimal_congr calculator function first)
    · exact one (fun _ => rfl) (applyDecimals_congr calculator function first second)
    · rfl

/-- A tree in a scope is at least as good as another: where the other has a value, it has one
    akin to it. -/
abbrev Gains (akin : Decimal → Decimal → Prop) (left right : Except EvalError Decimal) : Prop :=
  Improves akin left right

theorem Gains.refl {akin : Decimal → Decimal → Prop} [IsPreorder Decimal akin]
    {outcome : Except EvalError Decimal} : Gains akin outcome outcome :=
  fun value done => ⟨value, done, refl_of akin value⟩

/-- Operators and functions take values that are akin to values that are akin. -/
structure Calculator.Respects (calculator : Calculator) (akin : Decimal → Decimal → Prop) :
    Prop where
  neg : ∀ {a b}, akin a b → akin a.neg b.neg
  factorial : ∀ {a b}, akin a b →
    Gains akin (EvalError.lift (calculator.factorial a))
      (EvalError.lift (calculator.factorial b))
  combine : ∀ (op : Operator) {a b c d}, akin a b → akin c d →
    Gains akin (op.combine calculator a c) (op.combine calculator b d)
  value : ∀ (function : MathFunction) {values values'}, List.Forall₂ akin values values' →
    Gains akin (function.value calculator values) (function.value calculator values')

theorem Calculator.respects_eq (calculator : Calculator) : calculator.Respects Eq where
  neg := by
    rintro a _ rfl
    rfl
  factorial := by
    rintro a _ rfl
    exact .refl
  combine := by
    rintro op a _ c _ rfl rfl
    exact .refl
  value := by
    intro function values values' same
    rw [List.forall₂_eq_eq_eq] at same
    rw [same]
    exact .refl

instance : IsPreorder Decimal Same where
  refl _ := rfl
  trans _ _ _ := Eq.trans

theorem Calculator.Numeric.respects {calculator : Calculator} (numeric : calculator.Numeric) :
    calculator.Respects Same where
  neg same := same.neg
  factorial same := (EvalError.Alike.lift (Calculator.factorial_congr numeric same)).improves
  combine op a b c d first second := by
    rw [← calculator.arith_eq, ← calculator.arith_eq]
    exact (calculator.arith_congr op first second).improves
  value function values values' same := (function.value_congr calculator same).improves

/-- Up to a depth of calls, the named functions are as good after as they are before, where they
    may nest their calls as deep or deeper. -/
def Carries (calculator : Calculator) (akin : Decimal → Decimal → Prop)
    (inputs : String → Option Decimal) (depth : Nat) (names : List String)
    (before after : List Definition) : Prop :=
  ∀ k ≤ depth, ∀ deep ≥ k, ∀ name ∈ names, ∀ (primed : Bool) (values values' : List Decimal),
    List.Forall₂ akin values values' →
      Gains akin
        (Definition.applyNamed calculator (Expr.enterWithin calculator inputs k) before name
          primed values)
        (Definition.applyNamed calculator (Expr.enterWithin calculator inputs deep) after name
          primed values')

section

variable {calculator : Calculator} {akin : Decimal → Decimal → Prop}
variable {inputs : String → Option Decimal} {depth : Nat}
variable {names : List String} {before after : List Definition}

theorem Carries.mono {shallow : Nat} {fewer : List String}
    (carries : Carries calculator akin inputs depth names before after) (order : shallow ≤ depth)
    (subset : fewer ⊆ names) : Carries calculator akin inputs shallow fewer before after :=
  fun k bound deep deeper name member =>
    carries k (bound.trans order) deep deeper name (subset member)

end

/-! Parts that can stand for parts make trees that can stand for trees. -/

section

variable {calculator : Calculator} {akin : Decimal → Decimal → Prop}
variable {inputs : String → Option Decimal}
variable {enter enter' : Definition → List Definition → List Decimal → Except EvalError Decimal}
variable {frame frame' : Frame} {expr expr' : Expr} {exprs exprs' : List Expr}

/-- A tree can stand for another one in their frames. -/
abbrev StandsFor (calculator : Calculator) (akin : Decimal → Decimal → Prop)
    (inputs : String → Option Decimal)
    (enter enter' : Definition → List Definition → List Decimal → Except EvalError Decimal)
    (frame frame' : Frame) (expr expr' : Expr) : Prop :=
  Gains akin (expr.valueWith calculator inputs enter frame)
    (expr'.valueWith calculator inputs enter' frame')

theorem StandsFor.number [IsPreorder Decimal akin] (value : Decimal) :
    StandsFor calculator akin inputs enter enter' frame frame' (.number value) (.number value) := by
  unfold StandsFor
  simp only [Expr.valueWith]
  exact .ok (refl_of akin value)

theorem StandsFor.var [IsPreorder Decimal akin]
    (same : SameNames akin frame.parameters frame'.parameters) (name : String) :
    StandsFor calculator akin inputs enter enter' frame frame' (.var name) (.var name) := by
  unfold StandsFor
  simp only [Expr.valueWith]
  cases left : frame.parameters.lookup name with
  | none =>
    rw [SameNames.lookup_none same left]
    exact .refl
  | some value =>
    obtain ⟨value', right, related⟩ := SameNames.lookup_some same left
    rw [right]
    exact .ok related

theorem StandsFor.unary (respects : calculator.Respects akin) (op : UnaryOperator)
    (operand : StandsFor calculator akin inputs enter enter' frame frame' expr expr') :
    StandsFor calculator akin inputs enter enter' frame frame' (.unary op expr)
      (.unary op expr') := by
  unfold StandsFor
  cases op with
  | negate =>
    simp only [Expr.valueWith]
    exact operand.bind fun _ _ related => .ok (respects.neg related)
  | factorial =>
    simp only [Expr.valueWith]
    exact operand.bind fun _ _ related => respects.factorial related
  | not => exact .of_error

abbrev StandFor (calculator : Calculator) (akin : Decimal → Decimal → Prop)
    (inputs : String → Option Decimal)
    (enter enter' : Definition → List Definition → List Decimal → Except EvalError Decimal)
    (frame frame' : Frame) (exprs exprs' : List Expr) : Prop :=
  List.Forall₂ (StandsFor calculator akin inputs enter enter' frame frame') exprs exprs'

theorem StandFor.combine (respects : calculator.Respects akin)
    (operands : StandFor calculator akin inputs enter enter' frame frame' exprs exprs')
    (op : Operator) {value value' : Decimal} (same : akin value value') :
    Gains akin (Expr.combineWith calculator inputs enter op value exprs frame)
      (Expr.combineWith calculator inputs enter' op value' exprs' frame') := by
  induction operands generalizing value value' with
  | nil =>
    simp only [Expr.combineWith]
    exact .ok same
  | cons first _ ih =>
    simp only [Expr.combineWith]
    refine first.bind fun next next' related => ?_
    exact (respects.combine op same related).bind fun combined combined' => ih

theorem StandsFor.binary (respects : calculator.Respects akin) (op : Operator)
    (operands : StandFor calculator akin inputs enter enter' frame frame' exprs exprs') :
    StandsFor calculator akin inputs enter enter' frame frame' (.binary op exprs)
      (.binary op exprs') := by
  unfold StandsFor
  cases operands with
  | nil => exact .of_error
  | cons first rest =>
    simp only [Expr.valueWith]
    exact first.bind fun _ _ related => StandFor.combine respects rest op related

theorem StandFor.values
    (arguments : StandFor calculator akin inputs enter enter' frame frame' exprs exprs') :
    Improves (List.Forall₂ akin) (Expr.valuesWith calculator inputs enter exprs frame)
      (Expr.valuesWith calculator inputs enter' exprs' frame') := by
  induction arguments with
  | nil =>
    simp only [Expr.valuesWith]
    exact .ok .nil
  | cons first _ ih =>
    simp only [Expr.valuesWith]
    refine first.bind fun _ _ related => ?_
    exact ih.bind fun _ _ others => .ok (.cons related others)

theorem StandsFor.call {name : String} {primed : Bool}
    (arguments : StandFor calculator akin inputs enter enter' frame frame' exprs exprs')
    (function : ∀ values values', List.Forall₂ akin values values' →
      Gains akin (Definition.applyNamed calculator enter frame.definitions name primed values)
        (Definition.applyNamed calculator enter' frame'.definitions name primed values')) :
    StandsFor calculator akin inputs enter enter' frame frame' (.call name exprs primed)
      (.call name exprs' primed) := by
  unfold StandsFor
  simp only [Expr.valueWith]
  exact arguments.values.bind function

theorem StandsFor.define {name : String} {parameters : List String} {body body' : Expr}
    (inside : StandsFor calculator akin inputs enter enter' (frame.define ⟨name, parameters, body⟩)
      (frame'.define ⟨name, parameters, body'⟩) expr expr') :
    StandsFor calculator akin inputs enter enter' frame frame' (.define name parameters body expr)
      (.define name parameters body' expr') := by
  unfold StandsFor
  simp only [Expr.valueWith]
  exact inside

theorem StandsFor.below {name : String} {parameters : List String} {body : Expr}
    (inside : StandsFor calculator akin inputs enter enter' frame
      (frame'.define ⟨name, parameters, body⟩) expr expr') :
    StandsFor calculator akin inputs enter enter' frame frame' expr
      (.define name parameters body expr') := by
  unfold StandsFor
  simp only [Expr.valueWith]
  exact inside

theorem StandsFor.refl [IsPreorder Decimal akin] :
    StandsFor calculator akin inputs enter enter frame frame expr expr :=
  Gains.refl

theorem StandsFor.trans [IsPreorder Decimal akin]
    {enter'' : Definition → List Definition → List Decimal → Except EvalError Decimal}
    {frame'' : Frame} {expr'' : Expr}
    (first : StandsFor calculator akin inputs enter enter' frame frame' expr expr')
    (second : StandsFor calculator akin inputs enter' enter'' frame' frame'' expr' expr'') :
    StandsFor calculator akin inputs enter enter'' frame frame'' expr expr'' :=
  Improves.trans first second fun _ _ _ => trans_of akin

end

/-- A tree can stand for another one with the given numbers of nested calls. -/
abbrev StandsWithin (calculator : Calculator) (akin : Decimal → Decimal → Prop)
    (inputs : String → Option Decimal) (depth deep : Nat) (frame frame' : Frame)
    (expr expr' : Expr) : Prop :=
  StandsFor calculator akin inputs (Expr.enterWithin calculator inputs depth)
    (Expr.enterWithin calculator inputs deep) frame frame' expr expr'

/-! Scopes. -/

namespace Definition

variable {calculator : Calculator} {name : String} {primed : Bool} {values : List Decimal}
variable {enter : Definition → List Definition → List Decimal → Except EvalError Decimal}

theorem applyNamed_self {definition : Definition} {definitions below : List Definition}
    (seen : visible name definitions = definition :: below) :
    applyNamed calculator enter definitions name primed values =
      if values.length = definition.parameters.length then enter definition below values
      else .error (.argumentCount definition.parameters.length values.length) := by
  simp only [applyNamed, seen]

theorem visible_self (definition : Definition) (below : List Definition) :
    visible definition.name (definition :: below) = definition :: below := by
  rw [visible, if_pos (by simp)]

theorem applyNamed_congr {definitions definitions' : List Definition}
    (same : visible name definitions = visible name definitions') :
    applyNamed calculator enter definitions name primed values =
      applyNamed calculator enter definitions' name primed values := by
  unfold applyNamed
  rw [same]

theorem visible_other (definition : Definition) (other : name ≠ definition.name)
    (below : List Definition) : visible name (definition :: below) = visible name below := by
  rw [visible, if_neg]
  simpa using fun same => other same.symm

end Definition

section

variable {calculator : Calculator} {akin : Decimal → Decimal → Prop}
variable {inputs : String → Option Decimal} {depth : Nat}
variable {names : List String} {before after : List Definition}

/-- A definition whose body is as good, as long as calls in it are, is as good itself. -/
theorem Carries.define {name : String} {parameters : List String} {body body' : Expr}
    (outer : Carries calculator akin inputs depth names before after)
    (bodies : ∀ k < depth, Carries calculator akin inputs k (name :: names)
        (⟨name, parameters, body⟩ :: before) (⟨name, parameters, body'⟩ :: after) →
      ∀ deep ≥ k, ∀ values values', List.Forall₂ akin values values' →
        StandsWithin calculator akin inputs k deep
          (.ofValues parameters values (⟨name, parameters, body⟩ :: before))
          (.ofValues parameters values' (⟨name, parameters, body'⟩ :: after)) body body') :
    Carries calculator akin inputs depth (name :: names) (⟨name, parameters, body⟩ :: before)
      (⟨name, parameters, body'⟩ :: after) := by
  have upTo : ∀ j ≤ depth, Carries calculator akin inputs j (name :: names)
      (⟨name, parameters, body⟩ :: before) (⟨name, parameters, body'⟩ :: after) := by
    intro j
    -- Calls of the new definition go one level down, where the claim is known already.
    induction j using Nat.strong_induction_on with
    | h j ih =>
      intro bound k shallow deep deeper called member primed values values' same
      by_cases itself : called = name
      · subst itself
        have left := Definition.visible_self ⟨called, parameters, body⟩ before
        have right := Definition.visible_self ⟨called, parameters, body'⟩ after
        rw [Definition.applyNamed_self left, Definition.applyNamed_self right, same.length_eq]
        dsimp only
        split
        · cases k with
          | zero => exact .of_error
          | succ k =>
            have inside := ih k (by omega) (by omega)
            obtain ⟨deep, rfl⟩ : ∃ less, deep = less + 1 := ⟨deep - 1, by omega⟩
            exact bodies k (by omega) inside deep (by omega) values values' same
        · exact .of_error
      · have outside := (List.mem_cons.mp member).resolve_left itself
        have left := Definition.visible_other ⟨name, parameters, body⟩ itself before
        have right := Definition.visible_other ⟨name, parameters, body'⟩ itself after
        rw [Definition.applyNamed_congr left, Definition.applyNamed_congr right]
        exact outer k (shallow.trans bound) deep deeper called outside primed values values' same
  exact upTo depth le_rfl

/-- A change of trees keeps their values, wherever the functions that they call keep theirs. -/
def KeepsValues (calculator : Calculator) (akin : Decimal → Decimal → Prop)
    (inputs : String → Option Decimal) (change : Expr → Expr) (depth : Nat) : Prop :=
  ∀ deep ≥ depth, ∀ (expr : Expr) (frame frame' : Frame),
    SameNames akin frame.parameters frame'.parameters →
    Carries calculator akin inputs depth expr.callees frame.definitions frame'.definitions →
      StandsWithin calculator akin inputs depth deep frame frame' expr (change expr)

theorem Carries.change {change : Expr → Expr} {name : String} {body : Expr}
    (parameters : List String) (outer : Carries calculator akin inputs depth names before after)
    (known : body.callees ⊆ name :: names)
    (keeps : ∀ k < depth, KeepsValues calculator akin inputs change k) :
    Carries calculator akin inputs depth (name :: names) (⟨name, parameters, body⟩ :: before)
      (⟨name, parameters, change body⟩ :: after) :=
  outer.define fun k shallow inside deep deeper _ _ same =>
    keeps k shallow deep deeper body _ _ (SameNames.zip same) (inside.mono le_rfl known)

end

end Formulary
