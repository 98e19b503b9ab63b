import Formulary.Proofs.Simplify.Substitute

namespace Formulary

/-! Inlining keeps values. A definition is dropped when no call of it is left, so what remains
    calls functions that are visible without it. -/

section

variable {names : List String}

namespace Expr

variable {bindings : List (String × Expr)}

mutual

theorem callees_substitute (bound : ∀ name argument, bindings.lookup name = some argument →
    argument.callees ⊆ names) :
    ∀ expr : Expr, expr.callees ⊆ names → (expr.substitute bindings).callees ⊆ names
  | number _, _ | text _, _ => List.nil_subset _
  | var name, _ => by
    rw [substitute]
    cases found : bindings.lookup name with
    | none => exact List.nil_subset _
    | some argument => exact bound name argument found
  | unary _ operand, own => callees_substitute bound operand own
  | binary _ operands, own => by
    rw [callees_binary] at own
    rw [substitute, callees_binary]
    exact callees_substituteAll bound operands own
  | member target _, own => callees_substitute bound target own
  | call name arguments _, own => by
    rw [callees_call, List.cons_subset] at own
    rw [substitute, callees_call, List.cons_subset]
    exact ⟨own.1, callees_substituteAll bound arguments own.2⟩
  | define _ _ body value, own => by
    rw [callees_define, List.append_subset] at own
    rw [substitute, callees_define, List.append_subset]
    exact ⟨own.1, callees_substitute bound value own.2⟩

theorem callees_substituteAll (bound : ∀ name argument, bindings.lookup name = some argument →
    argument.callees ⊆ names) :
    ∀ exprs : List Expr, exprs.flatMap callees ⊆ names →
      (substituteAll bindings exprs).flatMap callees ⊆ names
  | [], _ => List.nil_subset _
  | expr :: rest, own => by
    rw [List.flatMap_cons, List.append_subset] at own
    rw [substituteAll, List.flatMap_cons, List.append_subset]
    exact ⟨callees_substitute bound expr own.1, callees_substituteAll bound rest own.2⟩

end

end Expr

namespace Definition

mutual

/-- After a replacement a tree calls only what it called before and what the body calls. -/
theorem callees_replaceCalls {definition : Definition} (called : definition.body.callees ⊆ names) :
    ∀ expr : Expr, expr.callees ⊆ names → (definition.replaceCalls expr).callees ⊆ names
  | .number _, _ | .text _, _ | .var _, _ => List.nil_subset _
  | .unary _ operand, own => callees_replaceCalls called operand own
  | .binary _ operands, own => by
    rw [Expr.callees_binary] at own
    rw [replaceCalls, Expr.callees_binary]
    exact callees_replaceCallsAll called operands own
  | .member target _, own => callees_replaceCalls called target own
  | .call name arguments _, own => by
    rw [Expr.callees_call, List.cons_subset] at own
    have inside := callees_replaceCallsAll called arguments own.2
    rw [replaceCalls]
    split
    · refine Expr.callees_substitute (fun parameter argument found => ?_) definition.body called
      have member := mem_of_lookup_zip found
      exact fun callee listed => inside (List.mem_flatMap_of_mem member listed)
    · rw [Expr.callees_call, List.cons_subset]
      exact ⟨own.1, inside⟩
  | .define _ _ body value, own => by
    have parts := own
    rw [Expr.callees_define, List.append_subset] at parts
    rw [replaceCalls]
    split
    · exact own
    · split
      all_goals rw [Expr.callees_define, List.append_subset]
      · exact ⟨callees_replaceCalls called body parts.1, callees_replaceCalls called value parts.2⟩
      · exact ⟨parts.1, callees_replaceCalls called value parts.2⟩

theorem callees_replaceCallsAll {definition : Definition}
    (called : definition.body.callees ⊆ names) :
    ∀ exprs : List Expr, exprs.flatMap Expr.callees ⊆ names →
      (definition.replaceCallsAll exprs).flatMap Expr.callees ⊆ names
  | [], _ => List.nil_subset _
  | expr :: rest, own => by
    rw [List.flatMap_cons, List.append_subset] at own
    rw [replaceCallsAll, List.flatMap_cons, List.append_subset]
    exact ⟨callees_replaceCalls called expr own.1, callees_replaceCallsAll called rest own.2⟩

end

end Definition

end

section

variable {calculator : Calculator} {akin : Decimal → Decimal → Prop}
variable {inputs : String → Option Decimal} {depth deep : Nat}

/-- A definition whose calls are gone can be left out. -/
theorem Carries.forget {definition : Definition} {names : List String}
    {before after : List Definition}
    (carries : Carries calculator akin inputs depth names before after)
    (uncalled : definition.name ∉ names) :
    Carries calculator akin inputs depth names (definition :: before) after := by
  intro k shallow deep deeper name member primed values values' same
  have other : name ≠ definition.name := fun equal => uncalled (equal ▸ member)
  rw [Definition.applyNamed_congr (Definition.visible_other definition other before)]
  exact carries k shallow deep deeper name member primed values values' same

/-- A change of trees keeps their values wherever all parameters are among the given names. -/
def KeepsUnder (calculator : Calculator) (akin : Decimal → Decimal → Prop)
    (inputs : String → Option Decimal) (bound : List String) (change : Expr → Expr)
    (depth : Nat) : Prop :=
  ∀ deep ≥ depth, ∀ (expr : Expr) (frame frame' : Frame),
    SameNames akin frame.parameters frame'.parameters →
    (∀ name ∉ bound, frame.parameters.lookup name = none) →
    Carries calculator akin inputs depth expr.callees frame.definitions frame'.definitions →
      StandsWithin calculator akin inputs depth deep frame frame' expr (change expr)

/-- The calls of a definition in the tree below it give way to its body, and the definition
    stays. -/
theorem Definition.replaceCalls_standsWithin [IsPreorder Decimal akin]
    (respects : calculator.Respects akin) {definition : Definition} {limits : Inlining}
    {level : Nat} {bound : List String}
    (may : definition.replaceable limits level bound = true) (value : Expr) {frame : Frame}
    (within : ∀ name ∉ bound, frame.parameters.lookup name = none) :
    StandsWithin calculator akin inputs depth depth frame (frame.define definition)
      (.define definition.name definition.parameters definition.body value)
      (definition.replaceCalls value) := by
  simp only [replaceable, Bool.and_eq_true, beq_iff_eq] at may
  obtain ⟨⟨-, once⟩, disjoint⟩ := may
  have plain := Expr.countCalls_eq_zero.mp once
  have scope : definition.InScope akin (frame.define definition) (frame.define definition) :=
    { same := List.forall₂_same.mpr fun _ _ => ⟨rfl, refl_of akin _⟩
      free := fun name member => within name (disjointNames_iff.mp disjoint name member)
      seen := ⟨frame.definitions, visible_self definition _, fun name member =>
        visible_other definition (fun same => plain (same ▸ member)) _⟩ }
  unfold StandsWithin StandsFor
  simp only [Expr.valueWith]
  exact inlines respects plain depth depth le_rfl value _ _ scope
    (.of_visible respects depth fun _ _ => rfl)

namespace Expr

variable {again : Nat → List String → Expr → Expr}

mutual

/-- One round keeps values if what follows a replacement does, by recursion on the tree; bodies
    are treated by what is known about fewer nested calls. -/
theorem inlineWith_step [IsPreorder Decimal akin] (respects : calculator.Respects akin)
    (limits : Inlining)
    (later : ∀ level bound k, KeepsUnder calculator akin inputs bound (again level bound) k)
    (deeper : deep ≥ depth)
    (lower : ∀ k < depth, ∀ level bound,
      KeepsUnder calculator akin inputs bound (inlineWith again limits level bound) k) :
    ∀ (expr : Expr) (level : Nat) (bound : List String) (frame frame' : Frame),
      SameNames akin frame.parameters frame'.parameters →
      (∀ name ∉ bound, frame.parameters.lookup name = none) →
      Carries calculator akin inputs depth expr.callees frame.definitions frame'.definitions →
        StandsWithin calculator akin inputs depth deep frame frame' expr
          (expr.inlineWith again limits level bound)
  | number value, _, _, _, _, _, _, _ => .number value
  | text _, _, _, _, _, _, _, _ => .of_error
  | var name, _, _, _, _, same, _, _ => .var same name
  | unary op operand, level, bound, frame, frame', same, within, carries =>
    .unary respects op (inlineWith_step respects limits later deeper lower operand level bound
      frame frame' same within carries)
  | binary op operands, level, bound, frame, frame', same, within, carries => by
    rw [callees_binary] at carries
    exact .binary respects op (inlineAllWith_step respects limits later deeper lower operands level
      bound frame frame' same within carries)
  | member _ _, _, _, _, _, _, _, _ => .of_error
  | call name arguments primed, level, bound, frame, frame', same, within, carries => by
    rw [callees_call] at carries
    have inside := inlineAllWith_step respects limits later deeper lower arguments level bound
      frame frame' same within (carries.mono le_rfl (List.subset_cons_self _ _))
    exact .call inside (carries depth le_rfl deep deeper name (by simp) primed)
  | define name parameters body value, level, bound, frame, frame', same, within, carries => by
    rw [callees_define] at carries
    have wider : ∀ other ∉ parameters ++ bound, frame.parameters.lookup other = none :=
      fun other absent => within other fun member => absent (by simp [member])
    have inside : Carries calculator akin inputs depth (name :: (body.callees ++ value.callees))
        (⟨name, parameters, body⟩ :: frame.definitions)
        (⟨name, parameters, inlineWith again limits (level + 1) (parameters ++ bound) body⟩ ::
          frame'.definitions) := by
      refine carries.define fun k shallow known deep deeper values values' related => ?_
      refine lower k shallow (level + 1) (parameters ++ bound) deep deeper body _ _
        (SameNames.zip related) (fun other absent => ?_)
        (known.mono le_rfl fun _ member => by simp [member])
      exact lookup_zip_of_not_mem (fun member => absent (by simp [member])) values
    rw [inlineWith]
    dsimp only
    split
    case isFalse =>
      exact .define (inlineWith_step respects limits later deeper lower value (level + 1)
        (parameters ++ bound) _ _ same wider
        (inside.mono le_rfl fun _ member => by simp [member]))
    case isTrue replaceable =>
      have first : StandsWithin calculator akin inputs depth depth frame
          (frame.define ⟨name, parameters, body⟩) (define name parameters body value) _ :=
        Definition.replaceCalls_standsWithin respects replaceable value within
      have callees : (Definition.replaceCalls ⟨name, parameters, body⟩ value).callees ⊆
          body.callees ++ value.callees :=
        Definition.callees_replaceCalls (List.subset_append_left _ _) value
          (List.subset_append_right _ _)
      split
      case isTrue gone =>
        -- What is left calls functions that are visible without the definition.
        have uncalled := countCalls_eq_zero.mp (beq_iff_eq.mp gone)
        exact first.trans (later level bound depth deep deeper _
          (frame.define ⟨name, parameters, body⟩) frame' same within
          ((carries.mono le_rfl callees).forget uncalled))
      case isFalse =>
        have second := later (level + 1) (parameters ++ bound) depth deep deeper
          (Definition.replaceCalls ⟨name, parameters, body⟩ value)
          (frame.define ⟨name, parameters, body⟩) (frame'.define ⟨name, parameters,
            inlineWith again limits (level + 1) (parameters ++ bound) body⟩) same wider
          (inside.mono le_rfl fun _ member => List.mem_cons_of_mem _ (callees member))
        exact first.trans second.below

theorem inlineAllWith_step [IsPreorder Decimal akin] (respects : calculator.Respects akin)
    (limits : Inlining)
    (later : ∀ level bound k, KeepsUnder calculator akin inputs bound (again level bound) k)
    (deeper : deep ≥ depth)
    (lower : ∀ k < depth, ∀ level bound,
      KeepsUnder calculator akin inputs bound (inlineWith again limits level bound) k) :
    ∀ (exprs : List Expr) (level : Nat) (bound : List String) (frame frame' : Frame),
      SameNames akin frame.parameters frame'.parameters →
      (∀ name ∉ bound, frame.parameters.lookup name = none) →
      Carries calculator akin inputs depth (exprs.flatMap callees) frame.definitions
        frame'.definitions →
        StandFor calculator akin inputs (enterWithin calculator inputs depth)
          (enterWithin calculator inputs deep) frame frame' exprs
          (inlineAllWith again limits level bound exprs)
  | [], _, _, _, _, _, _, _ => .nil
  | expr :: rest, level, bound, frame, frame', same, within, carries => by
    rw [List.flatMap_cons] at carries
    exact .cons
      (inlineWith_step respects limits later deeper lower expr level bound frame frame' same
        within (carries.mono le_rfl (List.subset_append_left _ _)))
      (inlineAllWith_step respects limits later deeper lower rest level bound frame frame' same
        within (carries.mono le_rfl (List.subset_append_right _ _)))

end

theorem inlineWith_keepsUnder [IsPreorder Decimal akin] (respects : calculator.Respects akin)
    (limits : Inlining)
    (later : ∀ level bound k, KeepsUnder calculator akin inputs bound (again level bound) k)
    (level : Nat) (bound : List String) (depth : Nat) :
    KeepsUnder calculator akin inputs bound (inlineWith again limits level bound) depth := by
  induction depth using Nat.strong_induction_on generalizing level bound with
  | h depth lower =>
    intro deep deeper expr frame frame'
    exact inlineWith_step respects limits later deeper lower expr level bound frame frame'

theorem inlineWithin_keepsUnder [IsPreorder Decimal akin] (respects : calculator.Respects akin)
    (limits : Inlining)
    (rounds level : Nat) (bound : List String) (depth : Nat) :
    KeepsUnder calculator akin inputs bound (inlineWithin limits rounds level bound) depth := by
  induction rounds generalizing level bound depth with
  | zero =>
    intro deep deeper expr frame frame' same _ carries
    exact id_keepsValues respects depth deep deeper expr frame frame' same carries
  | succ rounds ih => exact inlineWith_keepsUnder respects limits ih level bound depth

/-- A formula keeps its value when its definitions are inlined. -/
theorem inline_gains [IsPreorder Decimal akin] (respects : calculator.Respects akin)
    (limits : Inlining) (depth : Nat) (expr : Expr) :
    Gains akin (expr.valueWithin calculator inputs depth ⟨[], []⟩)
      ((expr.inline limits).valueWithin calculator inputs depth ⟨[], []⟩) :=
  inlineWithin_keepsUnder respects limits expr.inlineRounds 0 [] depth depth le_rfl expr ⟨[], []⟩
    ⟨[], []⟩ .nil (fun _ _ => rfl) (.of_visible respects depth fun _ _ => rfl)

end Expr

end

end Formulary
