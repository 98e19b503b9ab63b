import Formulary.Proofs.Lowering.Scoping

namespace Formulary

/-! A function whose body cannot be lowered leaves no trace among the functions, whatever was
    compiled or dropped while its body was lowered. The steps of lowering only add functions
    behind those that are there, so dropping all from an index on restores what was before it. -/

/-- Steps keep the numbering of functions without gaps, and they only add to a state. -/
theorem LowerState.Leads.grows {readable : String → Ty → Prop} {before after : LowerState}
    (leads : Leads readable before after) (numbered : before.functions.Numbered) :
    after.functions.Numbered ∧ before.Extends after := by
  induction leads with
  | refl state => exact ⟨numbered, .refl state⟩
  | trans _ _ first second =>
    obtain ⟨middle, left⟩ := first numbered
    obtain ⟨last, right⟩ := second middle
    exact ⟨last, left.trans right⟩
  | input _ =>
    exact ⟨numbered, .input _ _⟩
  | definition state =>
    exact ⟨numbered, .definition _⟩
  | stored signature type function _ ih =>
    obtain ⟨last, inside⟩ := ih (numbered.reserve signature type)
    exact ⟨last.store _ _, inside.stored function⟩
  | dropped signature type _ ih =>
    obtain ⟨last, inside⟩ := ih (numbered.reserve signature type)
    rw [inside.rollback_eq numbered last]
    exact ⟨numbered, inside.dropped⟩

namespace Compiler

variable {compiler : Compiler} {spanOf : Expr → Option Span} {state : LowerState}

/-- The states between the steps of lowering: after a tree has been lowered or has failed to be,
    with a definition numbered, or inside a function that has been reserved. -/
inductive Reaches (compiler : Compiler) (spanOf : Expr → Option Span) : LowerState → Prop
  | start : Reaches compiler spanOf {}
  | lowered {state : LowerState} (reached : Reaches compiler spanOf state) (depth : Nat)
      (expr : Expr) (scope : Scope) :
      Reaches compiler spanOf
        (compiler.lowerWith spanOf (compiler.lowerWithin spanOf depth) expr scope state).2
  | defined {state : LowerState} (reached : Reaches compiler spanOf state) :
      Reaches compiler spanOf (LowerM.freshDefinition state).2
  | entered {state : LowerState} (reached : Reaches compiler spanOf state) {signature : Signature}
      (unmet : state.functions.lookup signature = none) (type : Ty) :
      Reaches compiler spanOf (state.withFunctions (state.functions.reserve signature type))

theorem Reaches.numbered (transparent : compiler.Transparent)
    (reached : compiler.Reaches spanOf state) : state.functions.Numbered := by
  induction reached with
  | start => rfl
  | lowered _ depth expr scope ih =>
    have leads := lowerWith_leads transparent spanOf
      (lowerWithin_leads transparent _ spanOf depth) expr (.all scope expr)
    exact ((leads _).grows ih).1
  | defined _ ih => exact ih
  | entered _ _ type ih => exact ih.reserve _ type

/-- A call for which a function is reserved: its definition is in scope, and none has been reserved
    for the types of its arguments before. -/
structure Reserves (scope : Scope) (name : String) (operands : List Operand)
    (entry : Nat × Definition) (below : List (Nat × Definition)) (arguments : List Node)
    (before reserving : LowerState) : Prop where
  seen : Scope.visible name scope.definitions = entry :: below
  arity : operands.length = entry.2.parameters.length
  lowered : Operand.lowerAll (numericHint scope.hint) operands before = (.ok arguments, reserving)
  unmet : reserving.functions.lookup ⟨entry.1, arguments.map Node.ty⟩ = none

theorem lowerCall_of_reserves {enter : Expr → Scope → Ty → LowerM Node} {scope : Scope}
    {name : String} {operands : List Operand} {entry : Nat × Definition}
    {below : List (Nat × Definition)} {arguments : List Node} {before reserving : LowerState}
    (reserves : Reserves scope name operands entry below arguments before reserving) :
    let returnType := scope.hint.getD compiler.options.expectReturn
    let types := arguments.map Node.ty
    compiler.lowerCall enter scope name operands before =
      (do
        let index ← LowerM.compileFunction ⟨entry.1, types⟩ entry.2.name returnType
          (enter entry.2.body (.ofBody returnType types entry below) returnType)
        return .call index returnType arguments : LowerM Node) reserving := by
  intro returnType types
  unfold lowerCall
  rw [reserves.seen]
  dsimp only
  rw [if_neg (not_not.mpr reserves.arity), LowerM.bind_apply, reserves.lowered]
  dsimp only
  rw [LowerM.bind_apply, LowerM.get_apply]
  dsimp only
  rw [reserves.unmet]
  rfl

/-- When the body of a function cannot be lowered, the call fails, and the functions are those from
    before it was reserved; only the numbers of definitions stay used. -/
theorem lowerCall_restores (compiler : Compiler) (transparent : compiler.Transparent)
    (spanOf : Expr → Option Span) (before : LowerState) (reached : compiler.Reaches spanOf before)
    (depth : Nat) (scope : Scope) (name : String) (exprs : List Expr) (entry : Nat × Definition)
    (below : List (Nat × Definition)) (arguments : List Node) (reserving failed : LowerState)
    (error : CompileError) :
    let enter := compiler.lowerWithin spanOf depth
    let operands := compiler.operandsWith spanOf enter exprs scope
    let returnType := scope.hint.getD compiler.options.expectReturn
    let types := arguments.map Node.ty
    Reserves scope name operands entry below arguments before reserving →
    enter entry.2.body (.ofBody returnType types entry below) returnType
        (reserving.withFunctions (reserving.functions.reserve ⟨entry.1, types⟩ returnType)) =
      (.error error, failed) →
    ∃ after, compiler.lowerCall enter scope name operands before = (.error error, after) ∧
      after.functions.bodies = reserving.functions.bodies ∧
      after.functions.memo = reserving.functions.memo ∧
      reserving.functions.nextDefinition ≤ after.functions.nextDefinition := by
  intro enter operands returnType types reserves fails
  have enters : compiler.EntersReading (fun _ => True) enter :=
    lowerWithin_leads transparent _ spanOf depth
  -- The arguments may have compiled functions as well, ahead of the one that is reserved.
  have earlier := Operand.lowerAll_leads (operandsWith_leads transparent spanOf enters exprs
    fun expr _ => .all scope expr) (numericHint scope.hint) before
  rw [reserves.lowered] at earlier
  have numbered := (earlier.grows (reached.numbered transparent)).1
  have body := enters (.all (.ofBody returnType types entry below) entry.2.body) returnType
    (reserving.withFunctions (reserving.functions.reserve ⟨entry.1, types⟩ returnType))
  rw [fails] at body
  obtain ⟨last, inside⟩ := body.grows (numbered.reserve _ _)
  refine ⟨failed.withFunctions
    { reserving.functions with nextDefinition := failed.functions.nextDefinition }, ?_, rfl, rfl,
    inside.definitions⟩
  rw [lowerCall_of_reserves reserves, LowerM.bind_apply, LowerM.compileFunction_apply, fails]
  dsimp only
  rw [inside.rollback_eq numbered last]

end Compiler

/-- A definition `f'(a)` whose body has the helper `g'(b) = f'(b)` and reads an unknown variable
    after a call of it. -/
def unfinishable : Definition where
  name := "f"
  parameters := ["a"]
  body := .define "g" ["b"] (.call "f" [.var "b"] true)
    (.binary .add [.call "g" [.var "a"] true, .var "missing"])

/-- Inside a function of number `0`, whose parameter is `n`, and below the definition of `f`. -/
def aroundUnfinishable : Scope where
  hint := some .float64
  parameters := [("n", 0, .float64)]
  definitions := [(1, unfinishable), (0, ⟨"h", ["n"], .call "f" [.var "n"] true⟩)]

/-- `f'(n)` fails after `g` has been compiled with a call back to `f`. Both are dropped, and the
    function around the call is left as it was reserved. -/
theorem unfinishable_restores :
    let enter := ({} : Compiler).lowerWithin (fun _ => none) 3
    let operands := ({} : Compiler).operandsWith (fun _ => none) enter [.var "n"] aroundUnfinishable
    let reserving : LowerState :=
      { functions := { bodies := [none], memo := [(⟨0, [.float64]⟩, 0, .float64)]
                       nextDefinition := 2 } }
    let error : CompileError := .located (.var "missing") none (.unknownVariable "missing")
    (∃ failed, enter unfinishable.body
        (.ofBody .float64 [.float64] (1, unfinishable) (aroundUnfinishable.definitions.drop 1))
        .float64 (reserving.withFunctions (reserving.functions.reserve ⟨1, [.float64]⟩ .float64)) =
          (.error error, failed) ∧ failed.functions.bodies.length = 3) ∧
    ∃ after, ({} : Compiler).lowerCall enter aroundUnfinishable "f" operands reserving =
        (.error error, after) ∧
      after.functions.bodies = reserving.functions.bodies ∧
      after.functions.memo = reserving.functions.memo ∧
      reserving.functions.nextDefinition ≤ after.functions.nextDefinition := by
  intro enter operands reserving error
  have reached : ({} : Compiler).Reaches (fun _ => none) reserving := by
    have defined : ({} : Compiler).Reaches (fun _ => none) { functions := { nextDefinition := 2 } } :=
      .defined (.defined .start)
    have unmet : FunctionTable.lookup { nextDefinition := 2 } ⟨0, [.float64]⟩ = none := rfl
    exact .entered defined unmet .float64
  have reserves : Compiler.Reserves aroundUnfinishable "f" operands (1, unfinishable)
      (aroundUnfinishable.definitions.drop 1) [.parameter 0 .float64] reserving reserving :=
    ⟨rfl, rfl, rfl, rfl⟩
  obtain ⟨failed, fails, grown⟩ : ∃ failed, enter unfinishable.body
      (.ofBody .float64 [.float64] (1, unfinishable) (aroundUnfinishable.definitions.drop 1))
      .float64 (reserving.withFunctions (reserving.functions.reserve ⟨1, [.float64]⟩ .float64)) =
        (.error error, failed) ∧ failed.functions.bodies.length = 3 :=
    ⟨_, rfl, rfl⟩
  refine ⟨⟨failed, fails, grown⟩, ?_⟩
  exact Compiler.lowerCall_restores {}
    (Compiler.Regular.transparent ⟨by decide, by decide⟩) (fun _ => none) reserving reached 3
    aroundUnfinishable "f" [.var "n"] _ _ _ _ failed error reserves fails

end Formulary
