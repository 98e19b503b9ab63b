import Formulary.Proofs.Simplify.Rewrite
import Formulary.Simplify.Inline

namespace Formulary

/-! Bodies in place of calls. A call evaluates its arguments first, so a body with arguments in
    place of its parameters has a value wherever the call has one, and the same number. -/

theorem disjointNames_iff {names others : List String} :
    disjointNames names others = true ↔ ∀ name ∈ names, name ∉ others := by
  simp [disjointNames]

section

variable {calculator : Calculator} {akin : Decimal → Decimal → Prop}
variable {inputs : String → Option Decimal} {depth deep : Nat}

/-- A tree keeps its value when a definition is added that it does not call. -/
theorem Gains.shadow [IsPreorder Decimal akin] {value : Decimal} {expr : Expr}
    {parameters : List (String × Decimal)} {definitions : List Definition}
    (respects : calculator.Respects akin) (definition : Definition)
    (uncalled : definition.name ∉ expr.callees)
    (gains : Gains akin (.ok value)
      (expr.valueWithin calculator inputs depth ⟨parameters, definitions⟩)) :
    Gains akin (.ok value)
      (expr.valueWithin calculator inputs depth ⟨parameters, definition :: definitions⟩) := by
  have same : SameNames akin parameters parameters := by
    exact List.forall₂_same.mpr fun _ _ => ⟨rfl, refl_of akin _⟩
  have scope : Carries calculator akin inputs depth expr.callees definitions
      (definition :: definitions) := by
    refine .of_visible respects depth fun name member => ?_
    have other : name ≠ definition.name := fun same => uncalled (same ▸ member)
    exact (Definition.visible_other definition other definitions).symm
  have kept := Expr.id_keepsValues respects depth depth le_rfl expr ⟨parameters, definitions⟩
    ⟨parameters, definition :: definitions⟩ same scope
  exact Improves.trans gains kept fun _ _ _ => trans_of akin

namespace Expr

/-- Trees in place of variables: each has the value of its variable. -/
structure Binds (calculator : Calculator) (akin : Decimal → Decimal → Prop)
    (inputs : String → Option Decimal) (depth : Nat) (locals : List (String × Decimal))
    (bindings : List (String × Expr)) (frame : Frame) : Prop where
  bound : ∀ name value, locals.lookup name = some value →
    ∃ argument, bindings.lookup name = some argument ∧
      Gains akin (.ok value) (argument.valueWithin calculator inputs depth frame)
  unbound : ∀ name, locals.lookup name = none → bindings.lookup name = none

theorem Binds.define [IsPreorder Decimal akin] {locals parameters : List (String × Decimal)}
    {bindings : List (String × Expr)} {definitions : List Definition}
    (respects : calculator.Respects akin)
    (binds : Binds calculator akin inputs depth locals bindings ⟨parameters, definitions⟩)
    (definition : Definition)
    (uncalled : ∀ name argument, bindings.lookup name = some argument →
      definition.name ∉ argument.callees) :
    Binds calculator akin inputs depth locals bindings ⟨parameters, definition :: definitions⟩ where
  bound := by
    intro name value found
    obtain ⟨argument, present, gains⟩ := binds.bound name value found
    exact ⟨argument, present, gains.shadow respects definition (uncalled name argument present)⟩
  unbound := binds.unbound

variable {locals parameters : List (String × Decimal)} {bindings : List (String × Expr)}
variable {names : List String}

mutual

/-- The tree with its variables replaced stands for the tree with the variables bound. Names that
    are not bound must be inputs in both, and no argument may call a function that the tree
    defines. -/
theorem substitute_standsWithin [IsPreorder Decimal akin] (respects : calculator.Respects akin)
    (deeper : deep ≥ depth)
    (listed : ∀ name, locals.lookup name = none → name ∉ names) :
    ∀ (expr : Expr) (before after : List Definition),
      Binds calculator akin inputs deep locals bindings ⟨parameters, after⟩ →
      (∀ name ∈ expr.freeVariables names, parameters.lookup name = none) →
      (∀ name argument, bindings.lookup name = some argument →
        ∀ defined ∈ expr.definitions, defined ∉ argument.callees) →
      Carries calculator akin inputs depth expr.callees before after →
        StandsWithin calculator akin inputs depth deep ⟨locals, before⟩ ⟨parameters, after⟩ expr
          (expr.substitute bindings)
  | number value, _, _, _, _, _, _ => .number value
  | text _, _, _, _, _, _, _ => .of_error
  | var name, before, after, binds, free, _, _ => by
    unfold StandsWithin StandsFor
    cases left : locals.lookup name with
    | none =>
      have unnamed : name ∈ (var name).freeVariables names := by
        rw [freeVariables, if_neg (listed name left), List.mem_singleton]
      have right := binds.unbound name left
      simp only [substitute, valueWith, left, right, Option.getD_none, free name unnamed]
      exact .refl
    | some value =>
      obtain ⟨argument, right, gains⟩ := binds.bound name value left
      simp only [substitute, valueWith, left, right, Option.some_or, Option.getD_some]
      exact gains
  | unary op operand, before, after, binds, free, apart, carries =>
    .unary respects op (substitute_standsWithin respects deeper listed operand before after binds
      free apart carries)
  | binary op operands, before, after, binds, free, apart, carries => by
    rw [callees_binary] at carries
    rw [definitions_binary] at apart
    exact .binary respects op (substituteAll_standsWithin respects deeper listed operands before
      after binds free apart carries)
  | member _ _, _, _, _, _, _, _ => .of_error
  | call name arguments primed, before, after, binds, free, apart, carries => by
    rw [callees_call] at carries
    rw [definitions_call] at apart
    have inside := substituteAll_standsWithin respects deeper listed arguments before after binds
      free apart (carries.mono le_rfl (List.subset_cons_self _ _))
    exact .call inside (carries depth le_rfl deep deeper name (by simp) primed)
  | define name own body value, before, after, binds, free, apart, carries => by
    rw [callees_define] at carries
    rw [definitions_define] at apart
    rw [freeVariables] at free
    have known : body.callees ⊆ name :: (body.callees ++ value.callees) :=
      fun _ member => by simp [member]
    have inside := carries.change own known fun k _ => id_keepsValues respects k
    have apartInside : ∀ bound argument, bindings.lookup bound = some argument →
        ∀ defined ∈ value.definitions, defined ∉ argument.callees :=
      fun bound argument found defined member => apart bound argument found defined
        (by simp [member])
    -- The body has parameters of its own and stays as it is.
    have bindsInside := binds.define respects ⟨name, own, body⟩ fun bound argument found =>
      apart bound argument found name (by simp)
    exact .define (substitute_standsWithin respects deeper listed value _ _ bindsInside
      (fun other member => free other (by simp [member])) apartInside
      (inside.mono le_rfl fun _ member => by simp [member]))

theorem substituteAll_standsWithin [IsPreorder Decimal akin] (respects : calculator.Respects akin)
    (deeper : deep ≥ depth)
    (listed : ∀ name, locals.lookup name = none → name ∉ names) :
    ∀ (exprs : List Expr) (before after : List Definition),
      Binds calculator akin inputs deep locals bindings ⟨parameters, after⟩ →
      (∀ name ∈ freeVariablesAll names exprs, parameters.lookup name = none) →
      (∀ name argument, bindings.lookup name = some argument →
        ∀ defined ∈ exprs.flatMap definitions, defined ∉ argument.callees) →
      Carries calculator akin inputs depth (exprs.flatMap callees) before after →
        StandFor calculator akin inputs (enterWithin calculator inputs depth)
          (enterWithin calculator inputs deep) ⟨locals, before⟩ ⟨parameters, after⟩ exprs
          (substituteAll bindings exprs)
  | [], _, _, _, _, _, _ => .nil
  | expr :: rest, before, after, binds, free, apart, carries => by
    rw [List.flatMap_cons] at carries apart
    rw [freeVariablesAll] at free
    refine .cons ?_ ?_
    · exact substitute_standsWithin respects deeper listed expr before after binds
        (fun name member => free name (by simp [member]))
        (fun name argument found defined member => apart name argument found defined
          (by simp [member]))
        (carries.mono le_rfl (List.subset_append_left _ _))
    · exact substituteAll_standsWithin respects deeper listed rest before after binds
        (fun name member => free name (by simp [member]))
        (fun name argument found defined member => apart name argument found defined
          (List.mem_append_right _ member))
        (carries.mono le_rfl (List.subset_append_right _ _))

end

end Expr

/-! Calls of one definition. -/

theorem StandFor.bindings {frame frame' : Frame} {exprs exprs' : List Expr}
    {enter enter' : Definition → List Definition → List Decimal → Except EvalError Decimal}
    (stand : StandFor calculator akin inputs enter enter' frame frame' exprs exprs')
    {values : List Decimal}
    (done : Expr.valuesWith calculator inputs enter exprs frame = .ok values) :
    List.Forall₂
      (fun value expr => Gains akin (.ok value) (expr.valueWith calculator inputs enter' frame'))
      values exprs' := by
  induction stand generalizing values with
  | nil =>
    cases done
    exact .nil
  | cons first _ ih =>
    simp only [Expr.valuesWith] at done
    obtain ⟨value, evaluated, continued⟩ := bind_eq_ok.mp done
    obtain ⟨others, rest, collected⟩ := bind_eq_ok.mp continued
    cases collected
    rw [StandsFor, evaluated] at first
    exact .cons first (ih rest)

theorem lookup_zip_of_not_mem {names : List String} {name : String} (absent : name ∉ names)
    (values : List α) : (names.zip values).reverse.lookup name = none := by
  rw [List.lookup_eq_none_iff]
  rintro ⟨other, value⟩ member
  have listed : other ∈ names := (List.of_mem_zip (List.mem_reverse.mp member)).1
  simpa using fun same : name = other => absent (same ▸ listed)

theorem not_mem_of_lookup_zip {names : List String} {values : List α} {name : String}
    (size : values.length = names.length)
    (absent : (names.zip values).reverse.lookup name = none) : name ∉ names := by
  intro member
  rw [List.lookup_eq_none_iff] at absent
  rw [← List.map_fst_zip (Nat.le_of_eq size.symm)] at member
  obtain ⟨pair, listed, rfl⟩ := List.mem_map.mp member
  simpa using absent pair (List.mem_reverse.mpr listed)

theorem mem_of_lookup_zip {names : List String} {values : List α} {name : String} {value : α}
    (found : (names.zip values).reverse.lookup name = some value) : value ∈ values := by
  obtain ⟨before, after, equal, -⟩ := List.lookup_eq_some_iff.mp found
  have member : (name, value) ∈ (names.zip values).reverse := by simp [equal]
  exact (List.of_mem_zip (List.mem_reverse.mp member)).2

theorem Expr.Binds.of_values {names : List String} {values : List Decimal} {arguments : List Expr}
    {frame : Frame}
    (valued : List.Forall₂
      (fun value expr => Gains akin (.ok value) (expr.valueWithin calculator inputs depth frame))
      values arguments) :
    Expr.Binds calculator akin inputs depth (names.zip values).reverse (names.zip arguments).reverse
      frame where
  bound := fun _ _ => SameNames.lookup_some (SameNames.zip valued)
  unbound := fun _ => SameNames.lookup_none (SameNames.zip valued)

namespace Definition

/-- Frames between which the calls of a definition can give way to its body: its variables are
    no parameters, and the body calls the same functions as before. -/
structure InScope (akin : Decimal → Decimal → Prop) (definition : Definition)
    (frame frame' : Frame) : Prop where
  same : SameNames akin frame.parameters frame'.parameters
  free : ∀ name ∈ definition.free, frame'.parameters.lookup name = none
  seen : ∃ below, visible definition.name frame.definitions = definition :: below ∧
    ∀ name ∈ definition.body.callees, visible name frame'.definitions = visible name below

theorem InScope.define {definition inner inner' : Definition} {frame frame' : Frame}
    (scope : definition.InScope akin frame frame') (names : inner'.name = inner.name)
    (unshadowed : definition.shadowedBy inner.name = false) :
    definition.InScope akin (frame.define inner) (frame'.define inner') where
  same := scope.same
  free := scope.free
  seen := by
    obtain ⟨below, found, callees⟩ := scope.seen
    have own : definition.name ≠ inner.name := by
      rintro same
      simp [shadowedBy, same] at unshadowed
    refine ⟨below, ?_, fun name member => ?_⟩
    · exact (visible_other inner own frame.definitions).trans found
    · have other : name ≠ inner'.name := by
        rintro rfl
        simp [shadowedBy, ← names, member] at unshadowed
      exact (visible_other inner' other frame'.definitions).trans (callees name member)

/-- Bodies of inner definitions have their own parameters, which the definition must not use. -/
theorem InScope.enter {definition : Definition} {frame frame' : Frame} {name : String}
    {parameters : List String} {values values' : List Decimal}
    (scope : definition.InScope akin frame frame') (unshadowed : definition.shadowedBy name = false)
    (disjoint : disjointNames parameters definition.free = true)
    (same : List.Forall₂ akin values values') (body body' : Expr) :
    definition.InScope akin
      (.ofValues parameters values (⟨name, parameters, body⟩ :: frame.definitions))
      (.ofValues parameters values' (⟨name, parameters, body'⟩ :: frame'.definitions)) where
  same := SameNames.zip same
  free := fun name member => lookup_zip_of_not_mem
    (fun bound => disjointNames_iff.mp disjoint name bound member) values'
  seen :=
    have inner : definition.InScope akin (frame.define ⟨name, parameters, body⟩)
        (frame'.define ⟨name, parameters, body'⟩) := scope.define rfl unshadowed
    inner.seen

/-- Putting the body of a definition in place of its calls keeps the values of trees. -/
def Inlines (calculator : Calculator) (akin : Decimal → Decimal → Prop)
    (inputs : String → Option Decimal) (definition : Definition) (depth : Nat) : Prop :=
  ∀ deep ≥ depth, ∀ (expr : Expr) (frame frame' : Frame), definition.InScope akin frame frame' →
    Carries calculator akin inputs depth expr.callees frame.definitions frame'.definitions →
      StandsWithin calculator akin inputs depth deep frame frame' expr
        (definition.replaceCalls expr)

theorem instantiate_standsWithin [IsPreorder Decimal akin] (respects : calculator.Respects akin)
    {definition : Definition} (plain : definition.name ∉ definition.body.callees)
    (deeper : deep ≥ depth)
    {frame frame' : Frame} (scope : definition.InScope akin frame frame')
    {arguments replaced : List Expr} {primed : Bool}
    (inside : StandFor calculator akin inputs (Expr.enterWithin calculator inputs depth)
      (Expr.enterWithin calculator inputs deep) frame frame' arguments replaced)
    (free : definition.captures replaced = false) :
    StandsWithin calculator akin inputs depth deep frame frame'
      (.call definition.name arguments primed) (definition.instantiate replaced) := by
  obtain ⟨below, seen, callees⟩ := scope.seen
  intro value done
  simp only [Expr.valueWith] at done
  obtain ⟨values, evaluated, entered⟩ := bind_eq_ok.mp done
  rw [applyNamed_self seen] at entered
  split at entered
  case isFalse => cases entered
  case isTrue sized =>
    cases depth with
    | zero => cases entered
    | succ depth =>
      -- The call used up one level that the body in its place does not need.
      have binds : Expr.Binds calculator akin inputs deep
          (definition.parameters.zip values).reverse
          (definition.parameters.zip replaced).reverse frame' :=
        .of_values (inside.bindings evaluated)
      have apart : ∀ name argument,
          (definition.parameters.zip replaced).reverse.lookup name = some argument →
            ∀ defined ∈ definition.body.definitions, defined ∉ argument.callees := by
        intro name argument found defined member called
        have disjoint : disjointNames argument.callees definition.body.definitions = true := by
          simpa using List.any_eq_false.mp free argument (mem_of_lookup_zip found)
        exact disjointNames_iff.mp disjoint defined called member
      have same : ∀ name ∈ definition.body.callees,
          visible name (definition :: below) = visible name frame'.definitions := by
        intro name member
        have other : name ≠ definition.name := fun same => plain (same ▸ member)
        exact (visible_other definition other below).trans (callees name member).symm
      exact Expr.substitute_standsWithin respects (by omega : deep ≥ depth)
        (fun _ => not_mem_of_lookup_zip sized) definition.body (definition :: below)
        frame'.definitions binds scope.free apart (.of_visible respects depth same) value entered

mutual

theorem replaceCalls_step [IsPreorder Decimal akin] (respects : calculator.Respects akin)
    {definition : Definition} (plain : definition.name ∉ definition.body.callees)
    (deeper : deep ≥ depth)
    (lower : ∀ k < depth, definition.Inlines calculator akin inputs k) :
    ∀ (expr : Expr) (frame frame' : Frame), definition.InScope akin frame frame' →
      Carries calculator akin inputs depth expr.callees frame.definitions frame'.definitions →
        StandsWithin calculator akin inputs depth deep frame frame' expr
          (definition.replaceCalls expr)
  | .number value, _, _, _, _ => .number value
  | .text _, _, _, _, _ => .of_error
  | .var name, _, _, scope, _ => .var scope.same name
  | .unary op operand, frame, frame', scope, carries =>
    .unary respects op (replaceCalls_step respects plain deeper lower operand frame frame' scope
      carries)
  | .binary op operands, frame, frame', scope, carries => by
    rw [Expr.callees_binary] at carries
    exact .binary respects op (replaceCallsAll_step respects plain deeper lower operands frame
      frame' scope carries)
  | .member _ _, _, _, _, _ => .of_error
  | .call name arguments primed, frame, frame', scope, carries => by
    rw [Expr.callees_call] at carries
    have inside := replaceCallsAll_step respects plain deeper lower arguments frame frame' scope
      (carries.mono le_rfl (List.subset_cons_self _ _))
    rw [replaceCalls]
    split
    case isTrue replaces =>
      simp only [Bool.and_eq_true, beq_iff_eq, Bool.not_eq_true'] at replaces
      obtain ⟨⟨⟨-, rfl⟩, -⟩, free⟩ := replaces
      exact instantiate_standsWithin respects plain deeper scope inside free
    case isFalse =>
      exact .call inside (carries depth le_rfl deep deeper name (by simp) primed)
  | .define name parameters body value, frame, frame', scope, carries => by
    have whole := carries
    rw [Expr.callees_define] at carries
    have known : body.callees ⊆ name :: (body.callees ++ value.callees) :=
      fun _ member => by simp [member]
    have later : value.callees ⊆ name :: (body.callees ++ value.callees) :=
      fun _ member => by simp [member]
    rw [replaceCalls]
    split
    case isTrue =>
      exact Expr.id_keepsValues respects depth deep deeper _ frame frame' scope.same whole
    case isFalse unshadowed =>
      simp only [Bool.not_eq_true] at unshadowed
      split
      case isTrue disjoint =>
        have inside : Carries calculator akin inputs depth
            (name :: (body.callees ++ value.callees))
            (⟨name, parameters, body⟩ :: frame.definitions)
            (⟨name, parameters, definition.replaceCalls body⟩ :: frame'.definitions) := by
          refine carries.define fun k shallow within deep deeper values values' same => ?_
          exact lower k shallow deep deeper body _ _ (scope.enter unshadowed disjoint same _ _)
            (within.mono le_rfl known)
        exact .define (replaceCalls_step respects plain deeper lower value _ _
          (scope.define rfl unshadowed) (inside.mono le_rfl later))
      case isFalse =>
        have inside := carries.change parameters known fun k _ => Expr.id_keepsValues respects k
        exact .define (replaceCalls_step respects plain deeper lower value _ _
          (scope.define rfl unshadowed) (inside.mono le_rfl later))

theorem replaceCallsAll_step [IsPreorder Decimal akin] (respects : calculator.Respects akin)
    {definition : Definition} (plain : definition.name ∉ definition.body.callees)
    (deeper : deep ≥ depth)
    (lower : ∀ k < depth, definition.Inlines calculator akin inputs k) :
    ∀ (exprs : List Expr) (frame frame' : Frame), definition.InScope akin frame frame' →
      Carries calculator akin inputs depth (exprs.flatMap Expr.callees) frame.definitions
        frame'.definitions →
        StandFor calculator akin inputs (Expr.enterWithin calculator inputs depth)
          (Expr.enterWithin calculator inputs deep) frame frame' exprs
          (definition.replaceCallsAll exprs)
  | [], _, _, _, _ => .nil
  | expr :: rest, frame, frame', scope, carries => by
    rw [List.flatMap_cons] at carries
    exact .cons
      (replaceCalls_step respects plain deeper lower expr frame frame' scope
        (carries.mono le_rfl (List.subset_append_left _ _)))
      (replaceCallsAll_step respects plain deeper lower rest frame frame' scope
        (carries.mono le_rfl (List.subset_append_right _ _)))

end

theorem inlines [IsPreorder Decimal akin] (respects : calculator.Respects akin)
    {definition : Definition}
    (plain : definition.name ∉ definition.body.callees) (depth : Nat) :
    definition.Inlines calculator akin inputs depth := by
  induction depth using Nat.strong_induction_on with
  | h depth lower => exact fun deep deeper => replaceCalls_step respects plain deeper lower

end Definition

end

end Formulary
