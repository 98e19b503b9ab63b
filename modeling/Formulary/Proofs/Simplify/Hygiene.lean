import Formulary.Proofs.Semantics.ByName
import Formulary.Proofs.Simplify.Substitute
import Formulary.Simplify.Pass

namespace Formulary

/-! Inlining is hygienic: no name is captured when a body is put in place of a call, so a tree
    keeps its meaning with calls by name, whatever operators and builtin functions stand for. -/

universe u

variable {V : Type u} {interpretation : Interpretation V} {inputs : Assignment V} {depth : Nat}

theorem Assignment.bind_unbound {parameters : List String} {name : String}
    (unbound : name ∉ parameters) (values : List (Option V)) :
    inputs.bind parameters values name = inputs name := by
  rw [Assignment.bind, lookup_zip_of_not_mem unbound, Option.getD_none]

theorem lookup_zip_map {α β : Type*} (names : List String) (items : List α) (f : α → β)
    (name : String) :
    (names.zip (items.map f)).reverse.lookup name =
      ((names.zip items).reverse.lookup name).map f := by
  rw [List.zip_map_right, ← List.map_reverse]
  induction (names.zip items).reverse with
  | nil => rfl
  | cons entry rest ih =>
    rw [List.map_cons, List.lookup_cons, List.lookup_cons, ih, Prod.map_fst, id]
    cases name == entry.1 <;> rfl

namespace Expr

/-- Trees in place of variables: a variable that gives way to a tree has its meaning, and the
    others keep theirs. -/
structure Replaces (interpretation : Interpretation V) (inputs : Assignment V) (depth : Nat)
    (bindings : List (String × Expr)) (free : List String) (before after : Assignment V)
    (functions : Visible V) : Prop where
  bound : ∀ {name argument}, bindings.lookup name = some argument →
    before name = argument.meaning interpretation inputs depth functions after
  unbound : ∀ {name}, bindings.lookup name = none → name ∈ free → before name = after name

variable {bindings : List (String × Expr)} {names : List String}

mutual

/-- A tree with its variables replaced means what it means with the variables bound, as long as
    no argument calls a function that the tree defines. -/
theorem meaning_substitute (listed : ∀ name, bindings.lookup name = none → name ∉ names)
    {before after : Assignment V} :
    ∀ (expr : Expr) {functions others : Visible V},
      functions.AgreeOn expr.callees others →
      Replaces interpretation inputs depth bindings (expr.freeVariables names) before after
        others →
      (∀ {name argument}, bindings.lookup name = some argument →
        ∀ defined ∈ expr.definitions, defined ∉ argument.callees) →
        (expr.substitute bindings).meaning interpretation inputs depth others after =
          expr.meaning interpretation inputs depth functions before
  | number _, _, _, _, _, _ | text _, _, _, _, _, _ => rfl
  | var name, _, _, _, replaces, _ => by
    rw [substitute]
    cases found : bindings.lookup name with
    | none =>
      have free : name ∈ (var name).freeVariables names := by
        rw [freeVariables, if_neg (listed name found), List.mem_singleton]
      exact (replaces.unbound found free).symm
    | some argument => exact (replaces.bound found).symm
  | unary op operand, _, _, agree, replaces, apart => by
    rw [substitute, meaning, meaning, meaning_substitute listed operand agree replaces apart]
  | binary op operands, _, _, agree, replaces, apart => by
    rw [callees_binary] at agree
    rw [definitions_binary] at apart
    rw [substitute, meaning, meaning,
      meaningAll_substitute listed operands agree replaces apart]
  | member target name, _, _, agree, replaces, apart => by
    rw [substitute, meaning, meaning, meaning_substitute listed target agree replaces apart]
  | call name arguments primed, functions, others, agree, replaces, apart => by
    rw [callees_call] at agree
    rw [definitions_call] at apart
    have called : functions name = others name := agree name (by simp)
    rw [substitute, meaning, meaning, Interpretation.apply, Interpretation.apply, called,
      meaningAll_substitute listed arguments (agree.mono (List.subset_cons_self _ _)) replaces
        apart]
  | define name parameters body value, functions, others, agree, replaces, apart => by
    rw [callees_define] at agree
    rw [definitions_define] at apart
    rw [freeVariables] at replaces
    -- The body has parameters of its own, so the function is the same on both sides.
    have bodies : ∀ function values,
        body.meaning interpretation inputs depth (functions.define name function)
            (inputs.bind parameters values) =
          body.meaning interpretation inputs depth (others.define name function)
            (inputs.bind parameters values) := fun function values =>
      meaning_congr body _ ((agree.mono (List.subset_append_left _ _)).define name function)
    rw [substitute, meaning, meaning, ByName.unfold_entered_congr bodies]
    refine meaning_substitute listed value
      ((agree.mono (List.subset_append_right _ _)).define name _) ⟨?_, ?_⟩ ?_
    · intro parameter argument found
      have uncalled : name ∉ argument.callees := apart found name (by simp)
      rw [replaces.bound found]
      exact meaning_congr argument after
        ((Visible.AgreeOn.refl _ _).define_right uncalled _)
    · intro variable_ absent free
      exact replaces.unbound absent (List.mem_append_right _ free)
    · intro parameter argument found defined member
      exact apart found defined (by simp [member])

theorem meaningAll_substitute (listed : ∀ name, bindings.lookup name = none → name ∉ names)
    {before after : Assignment V} :
    ∀ (exprs : List Expr) {functions others : Visible V},
      functions.AgreeOn (exprs.flatMap callees) others →
      Replaces interpretation inputs depth bindings (freeVariablesAll names exprs) before after
        others →
      (∀ {name argument}, bindings.lookup name = some argument →
        ∀ defined ∈ exprs.flatMap definitions, defined ∉ argument.callees) →
        meaningAll interpretation inputs depth (substituteAll bindings exprs) others after =
          meaningAll interpretation inputs depth exprs functions before
  | [], _, _, _, _, _ => rfl
  | expr :: rest, _, _, agree, replaces, apart => by
    rw [List.flatMap_cons] at agree apart
    rw [freeVariablesAll] at replaces
    have first := meaning_substitute listed expr (agree.mono (List.subset_append_left _ _))
      ⟨replaces.bound, fun absent free => replaces.unbound absent
        (List.mem_append_left _ free)⟩
      fun found defined member => apart found defined (List.mem_append_left _ member)
    have others := meaningAll_substitute listed rest
      (agree.mono (List.subset_append_right _ _))
      ⟨replaces.bound, fun absent free => replaces.unbound absent
        (List.mem_append_right _ free)⟩
      fun found defined member => apart found defined (List.mem_append_right _ member)
    rw [substituteAll, meaningAll, meaningAll, first, others]

end

end Expr

namespace Definition

/-- A place where the calls of a definition can give way to its body: the name means the
    definition, the body calls what it would call here, and its variables are inputs here. -/
structure Reaches (interpretation : Interpretation V) (inputs : Assignment V) (depth : Nat)
    (definition : Definition) (functions : Visible V) (assignment : Assignment V) : Prop where
  found : ∃ function, functions definition.name = some function ∧
    ∀ values, values.length = definition.parameters.length →
      function values = definition.body.meaning interpretation inputs depth functions
        (inputs.bind definition.parameters values)
  free : ∀ name ∈ definition.free, assignment name = inputs name

variable {definition : Definition} {functions : Visible V} {assignment : Assignment V}

theorem Reaches.define (reaches : definition.Reaches interpretation inputs depth functions assignment)
    {name : String} (unshadowed : definition.shadowedBy name = false) (function : ByName V) :
    definition.Reaches interpretation inputs depth (functions.define name function) assignment := by
  rw [shadowedBy, Bool.or_eq_false_iff, beq_eq_false_iff_ne] at unshadowed
  obtain ⟨different, absent⟩ := unshadowed
  obtain ⟨own, found, enters⟩ := reaches.found
  refine ⟨⟨own, ?_, fun values sized => ?_⟩, reaches.free⟩
  · rw [Visible.define_other functions different.symm]
    exact found
  · have uncalled : name ∉ definition.body.callees := by simpa using absent
    rw [enters values sized]
    exact Expr.meaning_congr definition.body _
      ((Visible.AgreeOn.refl _ _).define_right uncalled function)

/-- Bodies on the way have their own parameters, which the definition must not use. -/
theorem Reaches.enter (reaches : definition.Reaches interpretation inputs depth functions assignment)
    {parameters : List String} (disjoint : disjointNames parameters definition.free = true)
    (values : List (Option V)) :
    definition.Reaches interpretation inputs depth functions (inputs.bind parameters values) where
  found := reaches.found
  free := fun name member => Assignment.bind_unbound
    (fun bound => disjointNames_iff.mp disjoint name bound member) values

theorem meaning_instantiate
    (reaches : definition.Reaches interpretation inputs depth functions assignment)
    {arguments : List Expr} (arity : arguments.length = definition.parameters.length)
    (apart : definition.captures arguments = false) (primed : Bool) :
    (definition.instantiate arguments).meaning interpretation inputs depth functions assignment =
      (Expr.call definition.name arguments primed).meaning interpretation inputs depth functions
        assignment := by
  obtain ⟨function, found, enters⟩ := reaches.found
  rw [Expr.meaning, Interpretation.apply, found, Expr.meaningAll_eq_map]
  dsimp only
  rw [enters _ (by rw [List.length_map, arity])]
  refine Expr.meaning_substitute (fun _ => not_mem_of_lookup_zip arity) definition.body
    (fun _ _ => rfl) ⟨?_, ?_⟩ ?_
  · intro name argument given
    rw [Assignment.bind, lookup_zip_map, given]
    rfl
  · intro name absent free
    rw [Assignment.bind, lookup_zip_map, absent]
    exact (reaches.free name free).symm
  · intro name argument given defined member called
    have disjoint : disjointNames argument.callees definition.body.definitions = true := by
      simpa using List.any_eq_false.mp apart argument (mem_of_lookup_zip given)
    exact disjointNames_iff.mp disjoint defined called member

theorem length_replaceCallsAll (exprs : List Expr) :
    (definition.replaceCallsAll exprs).length = exprs.length := by
  induction exprs with
  | nil => rfl
  | cons expr rest ih => rw [replaceCallsAll, List.length_cons, ih, List.length_cons]

mutual

/-- Putting the body of a definition in place of its calls keeps the meaning of a tree. -/
theorem meaning_replaceCalls : ∀ (expr : Expr) {functions : Visible V} {assignment : Assignment V},
    definition.Reaches interpretation inputs depth functions assignment →
      (definition.replaceCalls expr).meaning interpretation inputs depth functions assignment =
        expr.meaning interpretation inputs depth functions assignment
  | .number _, _, _, _ | .text _, _, _, _ | .var _, _, _, _ => rfl
  | .unary op operand, _, _, reaches => by
    rw [replaceCalls, Expr.meaning, Expr.meaning, meaning_replaceCalls operand reaches]
  | .binary op operands, _, _, reaches => by
    rw [replaceCalls, Expr.meaning, Expr.meaning, meaningAll_replaceCalls operands reaches]
  | .member target name, _, _, reaches => by
    rw [replaceCalls, Expr.meaning, Expr.meaning, meaning_replaceCalls target reaches]
  | .call name arguments primed, functions, assignment, reaches => by
    have kept : (Expr.call name (definition.replaceCallsAll arguments) primed).meaning
        interpretation inputs depth functions assignment =
          (Expr.call name arguments primed).meaning interpretation inputs depth functions
            assignment := by
      rw [Expr.meaning, Expr.meaning, meaningAll_replaceCalls arguments reaches]
    rw [replaceCalls]
    split
    case isFalse => exact kept
    case isTrue replaced =>
      simp only [Bool.and_eq_true, beq_iff_eq, Bool.not_eq_true'] at replaced
      obtain ⟨⟨⟨-, rfl⟩, arity⟩, apart⟩ := replaced
      have sized : (definition.replaceCallsAll arguments).length =
          definition.parameters.length := (length_replaceCallsAll arguments).trans arity
      exact (meaning_instantiate reaches sized apart primed).trans kept
  | .define name parameters body value, functions, assignment, reaches => by
    rw [replaceCalls]
    split
    case isTrue => rfl
    case isFalse unshadowed =>
      simp only [Bool.not_eq_true] at unshadowed
      have values : ∀ function, (definition.replaceCalls value).meaning interpretation inputs
          depth (functions.define name function) assignment =
            value.meaning interpretation inputs depth (functions.define name function)
              assignment := fun function =>
        meaning_replaceCalls value (reaches.define unshadowed function)
      split
      case isFalse => rw [Expr.meaning, Expr.meaning, values]
      case isTrue disjoint =>
        -- The function is the same because its bodies are, whatever its own name stands for.
        have bodies : ∀ function arguments,
            (definition.replaceCalls body).meaning interpretation inputs depth
                (functions.define name function) (inputs.bind parameters arguments) =
              body.meaning interpretation inputs depth (functions.define name function)
                (inputs.bind parameters arguments) := fun function arguments =>
          meaning_replaceCalls body
            ((reaches.define unshadowed function).enter disjoint arguments)
        rw [Expr.meaning, Expr.meaning, ByName.unfold_entered_congr bodies, values]

theorem meaningAll_replaceCalls : ∀ (exprs : List Expr) {functions : Visible V}
    {assignment : Assignment V},
    definition.Reaches interpretation inputs depth functions assignment →
      Expr.meaningAll interpretation inputs depth (definition.replaceCallsAll exprs) functions
          assignment =
        Expr.meaningAll interpretation inputs depth exprs functions assignment
  | [], _, _, _ => rfl
  | expr :: rest, _, _, reaches => by
    rw [replaceCallsAll, Expr.meaningAll, Expr.meaningAll, meaning_replaceCalls expr reaches,
      meaningAll_replaceCalls rest reaches]

end

theorem reaches_of_replaceable (interpretation : Interpretation V) (depth : Nat)
    (functions : Visible V) {limits : Inlining} {level : Nat} {bound : List String}
    (may : definition.replaceable limits level bound = true)
    (within : ∀ name ∉ bound, assignment name = inputs name) :
    definition.Reaches interpretation inputs depth
      (functions.define definition.name (ByName.unfold (ByName.entered inputs functions
        definition.name definition.parameters
        (definition.body.meaning interpretation inputs depth)) depth)) assignment := by
  simp only [replaceable, Bool.and_eq_true, beq_iff_eq] at may
  obtain ⟨⟨-, once⟩, disjoint⟩ := may
  have plain := Expr.countCalls_eq_zero.mp once
  -- What the body calls by the own name makes no difference.
  have alone : ∀ function others values,
      definition.body.meaning interpretation inputs depth
          (functions.define definition.name function)
          (inputs.bind definition.parameters values) =
        definition.body.meaning interpretation inputs depth
          (functions.define definition.name others)
          (inputs.bind definition.parameters values) := by
    intro function others values
    refine Expr.meaning_congr definition.body _ fun name member => ?_
    have different : name ≠ definition.name := fun same => plain (same ▸ member)
    rw [Visible.define_other functions different, Visible.define_other functions different]
  have steady : ∀ other, ByName.entered inputs functions definition.name definition.parameters
      (definition.body.meaning interpretation inputs depth) other =
        ByName.entered inputs functions definition.name definition.parameters
          (definition.body.meaning interpretation inputs depth) fun _ => none := by
    intro other
    funext values
    rw [ByName.entered, ByName.entered, alone other]
  refine ⟨⟨_, Visible.define_self functions _ _, fun values sized => ?_⟩, fun name member =>
    within name (disjointNames_iff.mp disjoint name member)⟩
  rw [ByName.unfold_of_const steady, ByName.entered, if_pos sized]
  exact alone _ _ values

end Definition

namespace Expr

/-- A change of trees keeps their meaning wherever all parameters are among the given names. -/
def KeepsMeaning (interpretation : Interpretation V) (inputs : Assignment V) (depth : Nat)
    (bound : List String) (change : Expr → Expr) : Prop :=
  ∀ (expr : Expr) (functions : Visible V) (assignment : Assignment V),
    (∀ name ∉ bound, assignment name = inputs name) →
      (change expr).meaning interpretation inputs depth functions assignment =
        expr.meaning interpretation inputs depth functions assignment

variable {again : Nat → List String → Expr → Expr} {limits : Inlining}

mutual

/-- One round keeps the meaning of a tree if what follows a replacement does. -/
theorem meaning_inlineWith
    (later : ∀ level bound, KeepsMeaning interpretation inputs depth bound (again level bound)) :
    ∀ (expr : Expr) (level : Nat) (bound : List String) (functions : Visible V)
      (assignment : Assignment V), (∀ name ∉ bound, assignment name = inputs name) →
        (expr.inlineWith again limits level bound).meaning interpretation inputs depth functions
            assignment =
          expr.meaning interpretation inputs depth functions assignment
  | number _, _, _, _, _, _ | text _, _, _, _, _, _ | var _, _, _, _, _, _ => rfl
  | unary op operand, level, bound, functions, assignment, within => by
    rw [inlineWith, meaning, meaning,
      meaning_inlineWith later operand level bound functions assignment within]
  | binary op operands, level, bound, functions, assignment, within => by
    rw [inlineWith, meaning, meaning,
      meaningAll_inlineWith later operands level bound functions assignment within]
  | member target name, level, bound, functions, assignment, within => by
    rw [inlineWith, meaning, meaning,
      meaning_inlineWith later target level bound functions assignment within]
  | call name arguments primed, level, bound, functions, assignment, within => by
    rw [inlineWith, meaning, meaning,
      meaningAll_inlineWith later arguments level bound functions assignment within]
  | define name parameters body value, level, bound, functions, assignment, within => by
    have bodies : ∀ function arguments,
        (body.inlineWith again limits (level + 1) (parameters ++ bound)).meaning interpretation
            inputs depth (functions.define name function) (inputs.bind parameters arguments) =
          body.meaning interpretation inputs depth (functions.define name function)
            (inputs.bind parameters arguments) := fun function arguments =>
      meaning_inlineWith later body (level + 1) (parameters ++ bound) _ _ fun other absent =>
        Assignment.bind_unbound (fun member => absent (by simp [member])) arguments
    have wider : ∀ other ∉ parameters ++ bound, assignment other = inputs other :=
      fun other absent => within other fun member => absent (by simp [member])
    rw [inlineWith]
    dsimp only
    split
    case isFalse =>
      rw [meaning, meaning, ByName.unfold_entered_congr bodies]
      exact meaning_inlineWith later value (level + 1) (parameters ++ bound) _ assignment wider
    case isTrue replaceable =>
      have replaced := Definition.meaning_replaceCalls value
        (Definition.reaches_of_replaceable interpretation depth functions replaceable within)
      split
      case isTrue gone =>
        -- No call is left, so the function makes no difference any more.
        have uncalled := countCalls_eq_zero.mp (beq_iff_eq.mp gone)
        rw [later level bound _ functions assignment within, meaning, ← replaced]
        exact meaning_congr _ assignment ((Visible.AgreeOn.refl _ _).define_right uncalled _)
      case isFalse =>
        rw [meaning, meaning, ByName.unfold_entered_congr bodies, ← replaced]
        exact later (level + 1) (parameters ++ bound) _ _ assignment wider

theorem meaningAll_inlineWith
    (later : ∀ level bound, KeepsMeaning interpretation inputs depth bound (again level bound)) :
    ∀ (exprs : List Expr) (level : Nat) (bound : List String) (functions : Visible V)
      (assignment : Assignment V), (∀ name ∉ bound, assignment name = inputs name) →
        meaningAll interpretation inputs depth (inlineAllWith again limits level bound exprs)
            functions assignment =
          meaningAll interpretation inputs depth exprs functions assignment
  | [], _, _, _, _, _ => rfl
  | expr :: rest, level, bound, functions, assignment, within => by
    rw [inlineAllWith, meaningAll, meaningAll,
      meaning_inlineWith later expr level bound functions assignment within,
      meaningAll_inlineWith later rest level bound functions assignment within]

end

theorem inlineWithin_keepsMeaning (limits : Inlining) (rounds level : Nat)
    (bound : List String) :
    KeepsMeaning interpretation inputs depth bound (inlineWithin limits rounds level bound) := by
  induction rounds generalizing level bound with
  | zero => exact fun _ _ _ _ => rfl
  | succ rounds ih =>
    intro expr functions assignment within
    exact meaning_inlineWith ih expr level bound functions assignment within

end Expr

/-- Inlining keeps the meaning of every formula, with any limits: at each depth to which recursive
    functions are unfolded the two trees have the same value or both have none. So one has a value
    at some depth exactly if the other has it. -/
theorem Pass.inline_hygienic (interpretation : Interpretation V) (inputs : Assignment V)
    (limits : Inlining) (expr : Expr) :
    (∀ depth, ((Pass.inline limits).run expr).1.meansWithin interpretation inputs depth =
      expr.meansWithin interpretation inputs depth) ∧
    ∀ value, (∃ depth, ((Pass.inline limits).run expr).1.meansWithin interpretation inputs depth =
        some value) ↔
      ∃ depth, expr.meansWithin interpretation inputs depth = some value := by
  have same : ∀ depth, ((Pass.inline limits).run expr).1.meansWithin interpretation inputs depth =
      expr.meansWithin interpretation inputs depth := fun depth =>
    Expr.inlineWithin_keepsMeaning limits expr.inlineRounds 0 [] expr (fun _ => none) inputs
      fun _ _ => rfl
  exact ⟨same, fun value => by simp only [same]⟩

end Formulary
