import Formulary.Proofs.Lowering.ScalarTree
import Formulary.Proofs.Lowering.Transition
import Formulary.Proofs.Simplify.Restriction

namespace Formulary

/-! Lowering reads the free variables of a tree and no others. A body is lowered at a call, maybe
    far from its definition and inside another function, but the scope it is lowered in has the
    parameters of its own definition only. -/

namespace Scope

/-- The scope in which a definition is lowered to a type, for arguments of the given types. -/
def ofBody (returnType : Ty) (types : List Ty) (entry : Nat × Definition)
    (below : List (Nat × Definition)) : Scope where
  hint := some returnType
  parameters := (entry.2.parameters.zip types.zipIdx).reverse.map
    fun (name, type, index) => (name, index, type)
  definitions := entry :: below

/-- The parameters of a scope are the bound names, and what is free in a tree or in a definition
    of the scope is among the given names. -/
structure Reads (scope : Scope) (names : String → Prop) (bound : List String) (expr : Expr) :
    Prop where
  parameters : ∀ name, scope.parameters.lookup name = none ↔ name ∉ bound
  free : ∀ name ∈ expr.freeVariables bound, names name
  bodies : ∀ entry ∈ scope.definitions, ∀ name ∈ entry.2.free, names name

variable {scope : Scope} {names : String → Prop} {bound : List String} {expr : Expr}
variable {exprs : List Expr}

namespace Reads

theorem outermost (hint : Option Ty) (expr : Expr) :
    Reads { hint } (· ∈ expr.freeVariables []) [] expr where
  parameters _ := ⟨fun _ => List.not_mem_nil, fun _ => rfl⟩
  free _ free := free
  bodies _ member := absurd member List.not_mem_nil

/-- Where every name may be read, a tree can stand in any scope. -/
theorem all (scope : Scope) (expr : Expr) :
    scope.Reads (fun _ => True) (scope.parameters.map (·.1)) expr where
  parameters name := by
    rw [List.lookup_eq_none_iff]
    constructor
    · intro others listed
      obtain ⟨entry, member, rfl⟩ := List.mem_map.mp listed
      simpa using others entry member
    · intro absent entry member
      simpa using fun same : name = entry.1 => absent (same ▸ List.mem_map_of_mem member)
  free _ _ := trivial
  bodies _ _ _ _ := trivial

theorem of_unbound {name : String} (reads : scope.Reads names bound (.var name))
    (unbound : name ∉ bound) : names name := by
  apply reads.free name
  simp [Expr.freeVariables, unbound]

theorem withHint (reads : scope.Reads names bound expr) (hint : Option Ty) :
    (scope.withHint hint).Reads names bound expr :=
  ⟨reads.parameters, reads.free, reads.bodies⟩

theorem part {part : Expr} (reads : scope.Reads names bound expr)
    (inner : part.freeVariables bound ⊆ expr.freeVariables bound) :
    scope.Reads names bound part :=
  ⟨reads.parameters, fun name free => reads.free name (inner free), reads.bodies⟩

theorem parts (reads : scope.Reads names bound expr)
    (inner : Expr.freeVariablesAll bound exprs ⊆ expr.freeVariables bound) :
    ∀ part ∈ exprs, scope.Reads names bound part := by
  intro part member
  refine reads.part fun name free => inner ?_
  rw [Expr.freeVariablesAll_eq]
  exact List.mem_flatMap.mpr ⟨part, member, free⟩

theorem define {name : String} {parameters : List String} {body value : Expr}
    (reads : scope.Reads names bound (.define name parameters body value)) (number : Nat) :
    Reads { scope with definitions := (number, ⟨name, parameters, body⟩) :: scope.definitions }
      names bound value where
  parameters := reads.parameters
  free other free := reads.free other (List.mem_append_right _ free)
  bodies := by
    intro entry member
    rcases List.mem_cons.mp member with rfl | member
    · exact fun other free => reads.free other (List.mem_append_left _ free)
    · exact reads.bodies entry member

theorem ofBody {name : String} {entry : Nat × Definition} {below : List (Nat × Definition)}
    {types : List Ty} (reads : scope.Reads names bound expr)
    (seen : visible name scope.definitions = entry :: below)
    (sized : types.length = entry.2.parameters.length) (returnType : Ty) :
    (Scope.ofBody returnType types entry below).Reads names entry.2.parameters
      entry.2.body where
  parameters other := by
    rw [Scope.ofBody, parameters_eq]
    exact ⟨not_mem_of_lookup_zip (by simpa using sized),
      fun absent => lookup_zip_of_not_mem absent _⟩
  free := by
    have member : entry ∈ scope.definitions :=
      (seen ▸ visible_suffix name scope.definitions).mem List.mem_cons_self
    exact reads.bodies entry member
  bodies other member :=
    reads.bodies other ((seen ▸ visible_suffix name scope.definitions).mem member)

end Reads

end Scope

namespace Compiler

variable {compiler : Compiler} {names : String → Prop} {bound : List String} {scope : Scope}
variable {enter : Expr → Scope → Ty → LowerM Node}

def Readable (compiler : Compiler) (names : String → Prop) (name : String) (type : Ty) : Prop :=
  names name ∧ compiler.options.inputs.get? name = some type

/-- Lowering the body of a function reads what is free in it. -/
def EntersReading (compiler : Compiler) (names : String → Prop)
    (enter : Expr → Scope → Ty → LowerM Node) : Prop :=
  ∀ ⦃scope bound expr⦄, scope.Reads names bound expr → ∀ type,
    (enter expr scope type).Leads (compiler.Readable names)

theorem lowerVariable_leads {name : String} (reads : scope.Reads names bound (.var name)) :
    (compiler.lowerVariable scope name).Leads (compiler.Readable names) := by
  unfold lowerVariable
  split
  · exact .pure _
  · rename_i unbound
    have free : names name := reads.of_unbound ((reads.parameters name).mp unbound)
    split
    · rename_i type declared
      exact .bind (.slotIndex ⟨free, declared⟩) fun _ => .pure _
    · split
      · exact .throw _
      · dsimp only
        split
        · exact .pure _
        · exact .throw _

theorem lowerCall_leads {expr : Expr} (enters : compiler.EntersReading names enter)
    (reads : scope.Reads names bound expr) {operands : List Operand}
    (leads : ∀ operand ∈ operands, operand.Leads (compiler.Readable names)) (name : String) :
    (compiler.lowerCall enter scope name operands).Leads (compiler.Readable names) := by
  unfold lowerCall
  split
  · exact .throw _
  · rename_i number definition below seen
    dsimp only
    split
    · exact .throw_bind _ _
    · rename_i arity
      refine .bind_of_run (Operand.lowerAll_leads leads _) fun before arguments after run => ?_
      refine .bind .get fun state => ?_
      split
      · exact .pure _
      · -- There are as many arguments as parameters, so all of these are bound in the body.
        have sized : (arguments.map Node.ty).length = definition.parameters.length := by
          rw [List.length_map, LowerM.length_of_mapM run]
          exact not_not.mp arity
        exact .bind (.compileFunction (enters (reads.ofBody seen sized _) _)) fun _ => .pure _

mutual

theorem lowerWith_leads (transparent : compiler.Transparent) (spanOf : Expr → Option Span)
    (enters : compiler.EntersReading names enter) {bound : List String} :
    ∀ (expr : Expr) {scope : Scope}, scope.Reads names bound expr →
      (compiler.lowerWith spanOf enter expr scope).Leads (compiler.Readable names)
  | .number _, _, _ => .pure _
  | .text _, _, _ => .pure _
  | .var _, _, reads => .locating _ _ (lowerVariable_leads reads)
  | .unary op operand, scope, reads =>
    .locating _ _ (lowerUnary_leads (fun hint =>
      lowerWith_leads transparent spanOf enters operand
        ((reads.withHint hint).part (List.Subset.refl _))) scope.hint op)
  | .binary op operands, scope, reads =>
    .locating _ _ (lowerBinary_leads transparent
      (operandsWith_leads transparent spanOf enters operands (reads.parts (List.Subset.refl _)))
      spanOf scope.hint op)
  | .member target name, _, reads =>
    .locating _ _ (lowerMember_leads (fun hint =>
      lowerWith_leads transparent spanOf enters target
        ((reads.withHint hint).part (List.Subset.refl _))) name)
  | .call name arguments primed, scope, reads => by
    have leads := operandsWith_leads transparent spanOf enters arguments
      (reads.parts (List.Subset.refl _))
    refine .locating _ _ ?_
    split
    · exact lowerCall_leads enters reads leads name
    · exact Builtin.lowerCall_leads transparent.builtins leads compiler.catalog scope.hint name
  | .define name parameters body value, _, reads =>
    .locating _ _ (.bind .freshDefinition fun number =>
      lowerWith_leads transparent spanOf enters value (reads.define number))

theorem operandsWith_leads (transparent : compiler.Transparent) (spanOf : Expr → Option Span)
    (enters : compiler.EntersReading names enter) {bound : List String} :
    ∀ (exprs : List Expr) {scope : Scope},
      (∀ expr ∈ exprs, scope.Reads names bound expr) →
      ∀ operand ∈ compiler.operandsWith spanOf enter exprs scope,
        operand.Leads (compiler.Readable names)
  | [], _, _ => fun _ member => absurd member List.not_mem_nil
  | expr :: rest, _, reads => by
    intro operand member
    rcases List.mem_cons.mp member with rfl | member
    · exact fun hint => lowerWith_leads transparent spanOf enters expr
        ((reads expr List.mem_cons_self).withHint hint)
    · exact operandsWith_leads transparent spanOf enters rest
        (fun other listed => reads other (List.mem_cons_of_mem _ listed)) operand member

end

theorem lowerWithin_leads (transparent : compiler.Transparent) (names : String → Prop)
    (spanOf : Expr → Option Span) (depth : Nat) :
    compiler.EntersReading names (compiler.lowerWithin spanOf depth) := by
  induction depth with
  | zero => exact fun _ _ _ _ _ => .throw _
  | succ depth ih =>
    intro scope bound expr reads type
    exact .bind (lowerWith_leads transparent spanOf ih expr (reads.withHint (some type))) fun _ =>
      .locating _ _ (.lift _)

end Compiler

end Formulary
