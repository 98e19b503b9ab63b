import Formulary.Proofs.Lowering.Congruence
import Formulary.Proofs.Lowering.Scoping

namespace Formulary

/-! The names of parameters do not matter to lowering. A tree whose parameters have other names,
    together with all variables that are bound to them, is lowered alike: so no bound variable is
    ever looked up among the inputs. -/

namespace Expr

mutual

/-- Rename the parameters of all definitions with the variables bound to them. The bound variables
    are those that `freeVariables` leaves out. -/
def renameBound (rename : String → String) (bound : List String) : Expr → Expr
  | number value => number value
  | text content => text content
  | var name => var (if name ∈ bound then rename name else name)
  | unary op operand => unary op (renameBound rename bound operand)
  | binary op operands => binary op (renameBoundAll rename bound operands)
  | member target name => member (renameBound rename bound target) name
  | call name arguments primed => call name (renameBoundAll rename bound arguments) primed
  | define name parameters body value =>
    define name (parameters.map rename) (renameBound rename parameters body)
      (renameBound rename bound value)

def renameBoundAll (rename : String → String) (bound : List String) : List Expr → List Expr
  | [] => []
  | expr :: rest => renameBound rename bound expr :: renameBoundAll rename bound rest

end

variable {rename : String → String}

theorem number?_renameBound (bound : List String) (expr : Expr) :
    (expr.renameBound rename bound).number? = expr.number? := by
  cases expr <;> rfl

def heading : Expr → Option (String × Nat)
  | define name parameters _ _ => some (name, parameters.length)
  | _ => none

mutual

theorem headings_renameBound (bound : List String) : ∀ expr : Expr,
    (expr.renameBound rename bound).subtrees.map heading = expr.subtrees.map heading
  | number _ | text _ | var _ => rfl
  | unary op operand => by
    simpa [renameBound, subtrees, heading] using headings_renameBound bound operand
  | binary op operands => by
    simpa [renameBound, subtrees, heading] using headings_renameBoundAll bound operands
  | member target name => by
    simpa [renameBound, subtrees, heading] using headings_renameBound bound target
  | call name arguments primed => by
    simpa [renameBound, subtrees, heading] using headings_renameBoundAll bound arguments
  | define name parameters body value => by
    simp [renameBound, subtrees, heading, headings_renameBound parameters body,
      headings_renameBound bound value]

theorem headings_renameBoundAll (bound : List String) : ∀ exprs : List Expr,
    (subtreesAll (renameBoundAll rename bound exprs)).map heading =
      (subtreesAll exprs).map heading
  | [] => rfl
  | expr :: rest => by
    simp [renameBoundAll, subtreesAll, headings_renameBound bound expr,
      headings_renameBoundAll bound rest]

end

end Expr

variable {compiler : Compiler} {rename : String → String} {bound : List String}

theorem Compiler.nestingBound_renameBound (bound : List String) (expr : Expr) :
    compiler.nestingBound (expr.renameBound rename bound) = compiler.nestingBound expr := by
  have definitions (expr : Expr) :
      expr.definitions = (expr.subtrees.map Expr.heading).filterMap (Option.map Prod.fst) := by
    rw [List.filterMap_map]
    refine List.filterMap_congr fun part _ => ?_
    cases part <;> rfl
  have parameters (expr : Expr) : maxParameters expr =
      ((expr.subtrees.map Expr.heading).map fun heading => (heading.map Prod.snd).getD 0).foldl
        max 0 := by
    rw [List.map_map, maxParameters]
    congr 1
    refine List.map_congr_left fun part _ => ?_
    cases part <;> rfl
  rw [nestingBound, nestingBound, definitions, definitions, parameters, parameters,
    Expr.headings_renameBound]

def Definition.renamed (rename : String → String) (definition : Definition) : Definition where
  name := definition.name
  parameters := definition.parameters.map rename
  body := definition.body.renameBound rename definition.parameters

namespace Scope

variable {scope : Scope} {names : String → Prop}

def renamed (rename : String → String) (scope : Scope) : Scope where
  hint := scope.hint
  parameters := scope.parameters.map fun entry => (rename entry.1, entry.2)
  definitions := scope.definitions.map fun entry => (entry.1, entry.2.renamed rename)

theorem visible_renamed (name : String) (definitions : List (Nat × Definition)) :
    visible name (definitions.map fun entry => (entry.1, entry.2.renamed rename)) =
      (visible name definitions).map fun entry => (entry.1, entry.2.renamed rename) := by
  induction definitions with
  | nil => rfl
  | cons entry below ih =>
    rw [List.map_cons, visible, visible, ih, apply_ite (List.map _)]
    rfl

theorem defines_renamed (scope : Scope) (name : String) :
    (scope.renamed rename).defines name = scope.defines name := by
  rw [defines, defines, renamed, visible_renamed, List.isEmpty_map]

theorem lookup_renamed (injective : Function.Injective rename) (name : String)
    (parameters : List (String × Nat × Ty)) :
    (parameters.map fun entry => (rename entry.1, entry.2)).lookup (rename name) =
      parameters.lookup name := by
  induction parameters with
  | nil => rfl
  | cons entry rest ih =>
    obtain ⟨other, info⟩ := entry
    have same : (rename name == rename other) = (name == other) := by
      rw [Bool.eq_iff_iff, beq_iff_eq, beq_iff_eq, injective.eq_iff]
    rw [List.map_cons, List.lookup_cons, List.lookup_cons, same, ih]

theorem lookup_renamed_of_fresh {name : String} (fresh : ∀ other, rename other ≠ name)
    (parameters : List (String × Nat × Ty)) :
    (parameters.map fun entry => (rename entry.1, entry.2)).lookup name = none := by
  rw [List.lookup_eq_none_iff]
  intro entry member
  obtain ⟨other, -, rfl⟩ := List.mem_map.mp member
  simpa using (fresh other.1).symm

theorem ofBody_renamed (returnType : Ty) (types : List Ty) (entry : Nat × Definition)
    (below : List (Nat × Definition)) :
    (ofBody returnType types entry below).renamed rename =
      ofBody returnType types (entry.1, entry.2.renamed rename)
        (below.map fun entry => (entry.1, entry.2.renamed rename)) := by
  simp only [renamed, ofBody, Definition.renamed, List.zip_map_left, List.map_reverse,
    List.map_map, List.map_cons]
  rfl

end Scope

namespace Compiler

variable {names : String → Prop} {scope : Scope} {state : LowerState}
variable {enter : Expr → Scope → Ty → LowerM Node}

/-- No name that may be read is given to a parameter. -/
structure Avoids (rename : String → String) (names : String → Prop) : Prop where
  injective : Function.Injective rename
  fresh : ∀ name, names name → ∀ other, rename other ≠ name

theorem lowerVariable_renamed (avoids : Avoids rename names) {name : String}
    (reads : scope.Reads names bound (.var name)) :
    compiler.lowerVariable (scope.renamed rename) (if name ∈ bound then rename name else name) =
      compiler.lowerVariable scope name := by
  by_cases member : name ∈ bound
  · obtain ⟨info, found⟩ : ∃ info, scope.parameters.lookup name = some info := by
      refine Option.ne_none_iff_exists'.mp fun none_ => ?_
      exact (reads.parameters name).mp none_ member
    have renamed : (scope.renamed rename).parameters.lookup (rename name) = some info :=
      (Scope.lookup_renamed avoids.injective name _).trans found
    rw [if_pos member, lowerVariable, lowerVariable, renamed, found]
  · -- A free variable keeps its name, and no parameter has been given that name.
    have renamed : (scope.renamed rename).parameters.lookup name = none :=
      Scope.lookup_renamed_of_fresh (avoids.fresh name (reads.of_unbound member)) _
    rw [if_neg member, lowerVariable, lowerVariable, renamed, (reads.parameters name).mpr member]
    rfl

/-- Bodies are lowered alike when their parameters are renamed. -/
def EntersRenamed (rename : String → String) (names : String → Prop)
    (enter : Expr → Scope → Ty → LowerM Node) : Prop :=
  ∀ ⦃scope bound expr⦄, Scope.Reads scope names bound expr → ∀ type state,
    LowerM.Alike state Eq (enter (expr.renameBound rename bound) (scope.renamed rename) type)
      (enter expr scope type)

theorem lowerCall_renamed (enters : EntersRenamed rename names enter) {expr : Expr}
    (reads : scope.Reads names bound expr) {lefts rights : List Operand}
    (all : List.Forall₂ Operand.Alike lefts rights) (name : String) :
    LowerM.Alike state Eq (compiler.lowerCall enter (scope.renamed rename) name lefts)
      (compiler.lowerCall enter scope name rights) := by
  have visible : Scope.visible name (scope.renamed rename).definitions = _ :=
    Scope.visible_renamed name scope.definitions
  unfold lowerCall
  rw [visible, all.length_eq]
  cases seen : Scope.visible name scope.definitions with
  | nil => exact .throw _ _
  | cons entry below =>
    have count : (entry.2.renamed rename).parameters.length = entry.2.parameters.length :=
      List.length_map _
    rw [List.map_cons]
    dsimp only
    rw [count]
    split
    · exact .refl _
    · rename_i arity
      refine (Operand.lowerAll_alike _ all).bind_of_run ?_
      rintro after arguments _ run rfl
      refine .andThen _ fun later table => ?_
      split
      · exact .refl _
      · have sized : (arguments.map Node.ty).length = entry.2.parameters.length := by
          rw [List.length_map, LowerM.length_of_mapM run, all.length_eq]
          exact not_not.mp arity
        have body := enters (reads.ofBody seen sized
          (scope.hint.getD compiler.options.expectReturn))
        rw [Scope.ofBody_renamed] at body
        exact (LowerM.Alike.compileFunction (body _ _)).bind_same fun _ _ => .refl _

mutual

theorem lowerWith_renamed (regular : compiler.Regular) (spanOf : Expr → Option Span)
    (avoids : Avoids rename names) (enters : EntersRenamed rename names enter)
    {bound : List String} : ∀ (expr : Expr) {scope : Scope}, scope.Reads names bound expr →
      ∀ state, LowerM.Alike state Eq
        (compiler.lowerWith spanOf enter (expr.renameBound rename bound) (scope.renamed rename))
        (compiler.lowerWith spanOf enter expr scope)
  | .number _, _, _, _ => .refl _
  | .text _, _, _, _ => .refl _
  | .var name, scope, reads, state => by
    rw [Expr.renameBound, lowerWith, lowerVariable_renamed avoids reads]
    exact .locating _ _ _ _ (.refl _)
  | .unary op operand, scope, reads, _ =>
    .locating _ _ _ _ (lowerUnary_alike (fun state hint => lowerWith_renamed regular spanOf
      avoids enters operand ((reads.withHint hint).part (List.Subset.refl _)) state)
      scope.hint op)
  | .binary op operands, scope, reads, _ =>
    .locating _ _ _ _ (lowerBinary_alike regular (operandsWith_renamed regular spanOf avoids
      enters operands (reads.parts (List.Subset.refl _))) spanOf scope.hint op)
  | .member target name, _, reads, _ =>
    .locating _ _ _ _ (lowerMember_alike (fun state hint => lowerWith_renamed regular spanOf
      avoids enters target ((reads.withHint hint).part (List.Subset.refl _)) state) name)
  | .call name arguments primed, scope, reads, state => by
    have operands := Operand.alike_of_akin (operandsWith_renamed regular spanOf avoids enters
      arguments (reads.parts (List.Subset.refl _)))
    rw [Expr.renameBound, lowerWith, lowerWith, Scope.defines_renamed]
    refine .locating _ _ _ _ ?_
    dsimp only
    split
    · exact lowerCall_renamed enters reads operands name
    · exact Builtin.lowerCall_alike regular.builtins operands compiler.catalog scope.hint name
  | .define name parameters body value, _, reads, _ =>
    .locating _ _ _ _ (.andThen _ fun after number =>
      lowerWith_renamed regular spanOf avoids enters value (reads.define number) after)

theorem operandsWith_renamed (regular : compiler.Regular) (spanOf : Expr → Option Span)
    (avoids : Avoids rename names) (enters : EntersRenamed rename names enter)
    {bound : List String} : ∀ (exprs : List Expr) {scope : Scope},
      (∀ expr ∈ exprs, scope.Reads names bound expr) →
      List.Forall₂ Operand.Akin
        (compiler.operandsWith spanOf enter (Expr.renameBoundAll rename bound exprs)
          (scope.renamed rename))
        (compiler.operandsWith spanOf enter exprs scope)
  | [], _, _ => .nil
  | expr :: rest, _, reads => by
    refine .cons ⟨fun state hint => ?_, ?_⟩ ?_
    · exact lowerWith_renamed regular spanOf avoids enters expr
        ((reads expr List.mem_cons_self).withHint hint) state
    · simp only [PowerStrategy.integerLiteral?, Expr.number?_renameBound]
    · exact operandsWith_renamed regular spanOf avoids enters rest
        fun other member => reads other (List.mem_cons_of_mem _ member)

end

theorem lowerWithin_renamed (regular : compiler.Regular) (spanOf : Expr → Option Span)
    (avoids : Avoids rename names) (depth : Nat) :
    EntersRenamed rename names (compiler.lowerWithin spanOf depth) := by
  induction depth with
  | zero => exact fun _ _ _ _ _ _ => .refl _
  | succ depth ih =>
    intro scope bound expr reads type state
    refine (lowerWith_renamed regular spanOf avoids ih expr (reads.withHint (some type))
      state).bind_same fun after node => ?_
    exact .locating _ _ _ _ (.refl _)

theorem lowerTo_renamed (regular : compiler.Regular) (spanOf : Expr → Option Span)
    (expr : Expr) (avoids : Avoids rename (· ∈ expr.freeVariables [])) (type : Ty) :
    LowerM.Alike state Eq (compiler.lowerTo spanOf type (expr.renameBound rename []))
      (compiler.lowerTo spanOf type expr) := by
  rw [lowerTo, lowerTo, nestingBound_renameBound]
  exact lowerWithin_renamed regular spanOf avoids _ (.outermost (some type) expr) type state

end Compiler

end Formulary
