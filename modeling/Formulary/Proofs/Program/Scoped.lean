import Formulary.Proofs.Lowering.Renaming
import Formulary.Proofs.Program.Grouped

namespace Formulary

/-! The inputs that a program reads are free variables of its formula. Simplification and lowering
    agree on what is bound: the former by one walk over the tree, the latter by scopes that change
    when a body is lowered at a call. -/

theorem LowerState.Leads.slots {readable : String → Ty → Prop} {before after : LowerState}
    (leads : Leads readable before after) :
    ∀ slot ∈ after.slots, slot ∈ before.slots ∨ readable slot.name slot.type := by
  induction leads with
  | refl state => exact fun slot member => .inl member
  | trans _ _ first second =>
    intro slot member
    rcases second slot member with earlier | allowed
    · exact first slot earlier
    · exact .inr allowed
  | input allowed =>
    intro slot member
    rcases List.mem_append.mp member with earlier | added
    · exact .inl earlier
    · cases List.mem_singleton.mp added
      exact .inr allowed
  | definition state => exact fun slot member => .inl member
  | stored _ _ _ _ ih => exact ih
  | dropped _ _ _ ih => exact ih

namespace Compiler

variable {compiler : Compiler} {spanOf : Expr → Option Span} {source : Option String} {expr : Expr}

theorem lowerTo_reads (transparent : compiler.Transparent) {type : Ty}
    {outcome : Except CompileError Node} {state : LowerState}
    (lowered : compiler.lowerTo spanOf type expr {} = (outcome, state)) :
    ∀ slot ∈ state.slots, slot.name ∈ expr.freeVariables [] ∧
      compiler.options.inputs.get? slot.name = some slot.type := by
  have leads := lowerWithin_leads transparent (· ∈ expr.freeVariables []) spanOf
    (compiler.nestingBound expr) (.outermost (some type) expr) type {}
  rw [← lowerTo, lowered] at leads
  intro slot member
  exact (leads.slots slot member).resolve_left List.not_mem_nil

theorem compileWith_plain_iff
    (disabled : compiler.options = compiler.options.withoutSimplification)
    (unrestricted : compiler.options.restrictions = []) {program : Program} :
    compiler.compileWith spanOf source expr = .ok program ↔
      ∃ state, compiler.lowerTo spanOf compiler.options.expectReturn expr {} =
          (.ok program.root, state) ∧
        state.functions.finish = .ok program.functions ∧ program.slots = state.slots ∧
        program.source = source ∧ program.restrictions = [] ∧ program.custom = [] ∧
        program.compilerVersion = Program.currentVersion := by
  have plain : compiler.simplified expr = (expr, []) := by
    rw [simplified_of_withoutSimplification disabled, unrestricted, ite_self]
  have lowered : compiler.lowerGuarded spanOf [] expr =
      compiler.lowerTo spanOf compiler.options.expectReturn expr := bind_pure _
  rw [compileWith_eq_ok_iff, plain, lowered]
  rfl

/-- Every input of a program is a free variable of the formula and is declared, with its type. A
    variable that is bound by a parameter is never read as an input: the parameters may be renamed,
    with the variables bound to them, to any names other than the free variables, and the program
    stays the same. -/
theorem compileWith_scoped (compiler : Compiler) (transparent : compiler.Transparent)
    (disabled : compiler.options = compiler.options.withoutSimplification)
    (unrestricted : compiler.options.restrictions = []) (spanOf : Expr → Option Span)
    (source : Option String) (expr : Expr) (program : Program)
    (compiled : compiler.compileWith spanOf source expr = .ok program) :
    (∀ slot ∈ program.slots, slot.name ∈ expr.freeVariables [] ∧
      compiler.options.inputs.get? slot.name = some slot.type) ∧
    (compiler.Regular → ∀ rename : String → String, Function.Injective rename →
      (∀ name, rename name ∉ expr.freeVariables []) →
      compiler.compileWith spanOf source (expr.renameBound rename []) = .ok program) := by
  obtain ⟨state, lowered, finished, slots, rest⟩ :=
    (compileWith_plain_iff disabled unrestricted).mp compiled
  refine ⟨?_, ?_⟩
  · rw [slots]
    exact lowerTo_reads transparent lowered
  · intro regular rename injective fresh
    have avoids : Avoids rename (· ∈ expr.freeVariables []) :=
      ⟨injective, fun name free other same => fresh other (same ▸ free)⟩
    have renamed := (lowerTo_renamed regular spanOf expr avoids _).of_run lowered
    exact (compileWith_plain_iff disabled unrestricted).mpr
      ⟨state, renamed, finished, slots, rest⟩

end Compiler

/-- Formulas over the inputs `x` and `y`, compiled as they are. -/
def unsimplified : Compiler where
  options := Options.withoutSimplification { inputs := [("x", .float64), ("y", .float64)] }

/-- `f'(x) = (g'(y) = x + y; g'(x) * y); f'(x)`, with names of its own for the parameters. The body
    of `g` reads the input `x`, and what follows it reads the input `y`. -/
def shadowing (first second : String) : Expr :=
  .define "f" [first]
    (.define "g" [second] (.binary .add [.var "x", .var second])
      (.binary .mul [.call "g" [.var first] true, .var "y"]))
    (.call "f" [.var "x"] true)

/-- The parameters `x` and `y` of the formula may be called `_x` and `_y`, and its program reads the
    inputs `x` and `y` as before. -/
theorem shadowing_scoped :
    ∃ program, unsimplified.compile (shadowing "x" "y") = .ok program ∧
      (∀ slot ∈ program.slots, slot.name ∈ (shadowing "x" "y").freeVariables [] ∧
        unsimplified.options.inputs.get? slot.name = some slot.type) ∧
      program.slotNames = ["x", "y"] ∧
      unsimplified.compile (shadowing "_x" "_y") = .ok program := by
  have succeeds : ((unsimplified.compile (shadowing "x" "y")).map Program.slotNames).toOption =
      some ["x", "y"] := rfl
  have regular : unsimplified.Regular := ⟨by decide, by decide⟩
  have injective : Function.Injective fun name => "_" ++ name := fun left right same => by
    simpa using same
  have free : (shadowing "x" "y").freeVariables [] = ["x", "y", "x"] := rfl
  have fresh : ∀ name, "_" ++ name ∉ (shadowing "x" "y").freeVariables [] := by
    intro name member
    have marked : ∀ other ∈ ["x", "y", "x"], other.toList.head? ≠ some '_' := by decide
    refine marked _ (free ▸ member) ?_
    rw [String.toList_append]
    rfl
  have tree : (shadowing "x" "y").renameBound (fun name => "_" ++ name) [] =
      shadowing "_x" "_y" := rfl
  cases compiled : unsimplified.compile (shadowing "x" "y") with
  | error error =>
    rw [compiled] at succeeds
    cases succeeds
  | ok program =>
    rw [compiled] at succeeds
    obtain ⟨reads, renamed⟩ := Compiler.compileWith_scoped unsimplified regular.transparent rfl rfl
      (fun _ => none) none _ program compiled
    exact ⟨program, rfl, reads, Option.some.inj succeeds, tree ▸ renamed regular _ injective fresh⟩

end Formulary
