import Formulary.Proofs.Simplify.Normal
import Formulary.Proofs.Simplify.Substitute
import Formulary.Proofs.Simplify.Exponent
import Formulary.Simplify.Pass

namespace Formulary

/-! Where the simplification of exponentials comes to rest. One rewriting exposes the next: a power
    of `e` is visited again as an exponential, and what an exponential or a logarithm leaves is
    seen by the tree around it. After one pass there is nothing left to rewrite, so a visit to parts
    that are simplified already changes nothing and restricts nothing. -/

namespace Expr

variable {rules : ExponentRules} {bound : List String} {expr result inner : Expr}
variable {parts restrictions more : List Expr}

/-- Parameters that the parts of a tree see besides those around it. -/
def binds : Expr → List String
  | define _ parameters _ _ => parameters
  | _ => []

mutual

/-- The tree and all trees below it, each with the parameters of the definitions around it. -/
def scopedSubtrees (bound : List String) : Expr → List (List String × Expr)
  | number value => [(bound, number value)]
  | text content => [(bound, text content)]
  | var name => [(bound, var name)]
  | unary op operand => (bound, unary op operand) :: scopedSubtrees bound operand
  | binary op operands => (bound, binary op operands) :: scopedSubtreesAll bound operands
  | member target name => (bound, member target name) :: scopedSubtrees bound target
  | call name arguments primed =>
    (bound, call name arguments primed) :: scopedSubtreesAll bound arguments
  | define name parameters body value =>
    (bound, define name parameters body value) ::
      (scopedSubtrees (parameters ++ bound) body ++ scopedSubtrees (parameters ++ bound) value)

def scopedSubtreesAll (bound : List String) : List Expr → List (List String × Expr)
  | [] => []
  | expr :: rest => scopedSubtrees bound expr ++ scopedSubtreesAll bound rest

end

theorem scopedSubtreesAll_eq (exprs : List Expr) :
    scopedSubtreesAll bound exprs = exprs.flatMap (scopedSubtrees bound) := by
  induction exprs with
  | nil => rfl
  | cons expr rest ih => rw [scopedSubtreesAll, ih, List.flatMap_cons]

theorem scopedSubtrees_eq (bound : List String) (expr : Expr) :
    expr.scopedSubtrees bound =
      (bound, expr) :: expr.children.flatMap (scopedSubtrees (expr.binds ++ bound)) := by
  cases expr <;> simp [scopedSubtrees, scopedSubtreesAll_eq, children, binds]

/-- Nothing can be rewritten at the root of the tree. -/
structure IsReduced (rules : ExponentRules) (bound : List String) (expr : Expr) : Prop where
  power : ∀ exponent, expr = binary .power [var "e", exponent] →
    "e" ∈ rules.inputs ∨ "e" ∈ bound
  logarithm : ∀ inner, expr ≠ call "ln" [call "exp" [inner] false] false
  exponential : rules.allowDomainChanges = true →
    ∀ inner, expr = call "exp" [call "ln" [inner] false] false →
      ∃ name ∈ inner.freeVariables [], name ∈ bound

/-- Nothing can be rewritten anywhere in the tree. -/
def IsSimplified (rules : ExponentRules) (bound : List String) (expr : Expr) : Prop :=
  ∀ part ∈ expr.scopedSubtrees bound, part.2.IsReduced rules part.1

theorem isSimplified_iff : expr.IsSimplified rules bound ↔ expr.IsReduced rules bound ∧
    ∀ child ∈ expr.children, child.IsSimplified rules (expr.binds ++ bound) := by
  simp only [IsSimplified, scopedSubtrees_eq bound expr, List.forall_mem_cons,
    List.forall_mem_flatMap]

/-- The tree with other parts in place of its own. -/
def withParts : Expr → List Expr → Expr
  | unary op _, [operand] => unary op operand
  | binary op _, operands => binary op operands
  | member _ name, [target] => member target name
  | call name _ primed, arguments => call name arguments primed
  | define name parameters _ _, [body, value] => define name parameters body value
  | expr, _ => expr

theorem withParts_children (expr : Expr) : expr.withParts expr.children = expr := by
  cases expr <;> rfl

theorem children_withParts (lengths : parts.length = expr.children.length) :
    (expr.withParts parts).children = parts := by
  cases expr with
  | number | text | var => exact (List.length_eq_zero_iff.mp lengths).symm
  | binary | call => rfl
  | unary | member =>
    obtain ⟨part, rfl⟩ := List.length_eq_one_iff.mp lengths
    rfl
  | define =>
    obtain ⟨body, value, rfl⟩ := List.length_eq_two.mp lengths
    rfl

theorem binds_withParts (expr : Expr) (parts : List Expr) :
    (expr.withParts parts).binds = expr.binds := by
  unfold withParts
  split <;> rfl

/-- What becomes of a tree whose parts are done: the tree in its place, the restrictions under
    which it stands there, and whether it is to be visited again. -/
inductive Exits (rules : ExponentRules) (bound : List String) :
    Expr → Expr → List Expr → Bool → Prop
  | stays {expr : Expr} (reduced : expr.IsReduced rules bound) : Exits rules bound expr expr [] false
  | power {exponent : Expr} (constant : "e" ∉ rules.inputs) (unbound : "e" ∉ bound) :
      Exits rules bound (binary .power [var "e", exponent]) (call "exp" [exponent] false) [] true
  | logarithm {inner : Expr} :
      Exits rules bound (call "ln" [call "exp" [inner] false] false) inner [] false
  | exponential {inner : Expr} (allowed : rules.allowDomainChanges = true)
      (unbound : ∀ name ∈ inner.freeVariables [], name ∉ bound) :
      Exits rules bound (call "exp" [call "ln" [inner] false] false) inner [inner.notPositive]
        false

theorem exists_exits (rules : ExponentRules) (bound : List String) (expr : Expr) :
    ∃ result more again, Exits rules bound expr result more again := by
  by_cases reduced : expr.IsReduced rules bound
  · exact ⟨_, _, _, .stays reduced⟩
  · by_contra none_
    refine reduced ⟨fun exponent shape => ?_, fun inner shape => ?_, fun allowed inner shape => ?_⟩
    · subst shape
      by_contra free
      obtain ⟨constant, unbound⟩ := not_or.mp free
      exact none_ ⟨_, _, _, .power constant unbound⟩
    · subst shape
      exact none_ ⟨_, _, _, .logarithm⟩
    · subst shape
      by_contra free
      exact none_ ⟨_, _, _, .exponential allowed fun name used inside => free ⟨name, used, inside⟩⟩

theorem cancelLogarithm_of_reduced (reduced : expr.IsReduced rules bound) :
    expr.cancelLogarithm rules bound = (expr, []) := by
  unfold cancelLogarithm
  split
  case h_1 inner found => exact absurd (nested_argumentOf? found) (reduced.logarithm inner)
  case h_2 =>
    split
    case h_1 inner found =>
      rw [if_neg]
      intro both
      obtain ⟨allowed, apart⟩ := Bool.and_eq_true_iff.mp both
      obtain ⟨name, used, inside⟩ := reduced.exponential allowed inner (nested_argumentOf? found)
      exact disjointNames_iff.mp apart name used inside
    case h_2 => rfl

theorem Exits.simplifyRoot_eq {again : Bool} (exits : Exits rules bound expr result more again) :
    expr.simplifyRoot rules bound =
      if again then result.simplifyRoot rules bound else (result, more) := by
  cases exits with
  | stays reduced =>
    unfold simplifyRoot
    split
    case h_1 exponent found =>
      rw [if_pos]
      · rfl
      · simpa using reduced.power exponent (exponentOfE?_eq_some found)
    case h_2 => exact cancelLogarithm_of_reduced reduced
  | power constant unbound => simp [simplifyRoot, exponentOfE?, constant, unbound]
  | logarithm => rfl
  | exponential allowed unbound =>
    simp [simplifyRoot, exponentOfE?, cancelLogarithm, argumentOf?, allowed,
      disjointNames_iff.mpr unbound]

/-- The parts are simplified in order, and then the root above them. -/
theorem simplifyExponents_eq (bound : List String) (expr : Expr) :
    expr.simplifyExponents rules bound =
      let (parts, restrictions) := simplifyExponentsAll rules (expr.binds ++ bound) expr.children
      let (result, more) := (expr.withParts parts).simplifyRoot rules bound
      (result, restrictions ++ more) := by
  cases expr with
  | binary | call => simp [simplifyExponents, children, binds, withParts]
  | number | text | var | unary | member | define =>
    simp [simplifyExponents, simplifyExponentsAll, children, binds, withParts, simplifyRoot,
      exponentOfE?, cancelLogarithm, argumentOf?]

theorem simplifyExponentsAll_isSimplified {exprs : List Expr}
    (simplified : ∀ expr ∈ exprs, (expr.simplifyExponents rules bound).1.IsSimplified rules bound) :
    ∀ part ∈ (simplifyExponentsAll rules bound exprs).1, part.IsSimplified rules bound := by
  induction exprs with
  | nil => simp [simplifyExponentsAll]
  | cons expr rest ih =>
    obtain ⟨first, others⟩ := List.forall_mem_cons.mp simplified
    exact List.forall_mem_cons.mpr ⟨first, ih others⟩

/-- A root that is left for good stands above simplified parts, or is one of them. -/
theorem Exits.isSimplified (exits : Exits rules bound expr result more false)
    (parts : ∀ child ∈ expr.children, child.IsSimplified rules (expr.binds ++ bound)) :
    result.IsSimplified rules bound := by
  generalize last : false = again at exits
  cases exits with
  | stays reduced => exact isSimplified_iff.mpr ⟨reduced, parts⟩
  | power => cases last
  | logarithm | exponential =>
    have middle := parts _ (List.mem_singleton_self _)
    exact (isSimplified_iff.mp middle).2 _ (List.mem_singleton_self _)

/-- What is visited again has parts that are simplified already, and leaves this time. -/
theorem Exits.visitedAgain (exits : Exits rules bound expr result more true)
    (parts : ∀ child ∈ expr.children, child.IsSimplified rules (expr.binds ++ bound)) :
    more = [] ∧ (∀ child ∈ result.children, child.IsSimplified rules (result.binds ++ bound)) ∧
      ∃ last restrictions, Exits rules bound result last restrictions false := by
  cases exits with
  | @power exponent =>
    refine ⟨rfl, List.forall_mem_singleton.mpr (parts exponent (by simp [children])), ?_⟩
    obtain ⟨last, restrictions, again, second⟩ :=
      exists_exits rules bound (call "exp" [exponent] false)
    generalize same : call "exp" [exponent] false = next at second
    cases second with
    | stays reduced => exact ⟨_, _, .stays reduced⟩
    | power | logarithm => simp at same
    | exponential allowed unbound => exact ⟨_, _, .exponential allowed unbound⟩

theorem simplifyRoot_isSimplified
    (parts : ∀ child ∈ expr.children, child.IsSimplified rules (expr.binds ++ bound)) :
    (expr.simplifyRoot rules bound).1.IsSimplified rules bound := by
  obtain ⟨result, more, again, exits⟩ := exists_exits rules bound expr
  rw [exits.simplifyRoot_eq]
  cases again with
  | false => exact exits.isSimplified parts
  | true =>
    obtain ⟨-, inside, last, restrictions, second⟩ := exits.visitedAgain parts
    rw [if_pos rfl, second.simplifyRoot_eq]
    exact second.isSimplified inside

theorem simplifyExponents_isSimplified (rules : ExponentRules) (bound : List String)
    (expr : Expr) :
    (expr.simplifyExponents rules bound).1.IsSimplified rules bound := by
  induction expr using parts_induction generalizing bound with
  | step expr ih =>
    have parts := simplifyExponentsAll_isSimplified fun child member =>
      ih child member (expr.binds ++ bound)
    rw [simplifyExponents_eq]
    refine simplifyRoot_isSimplified ?_
    rw [children_withParts (length_simplifyExponentsAll _ _), binds_withParts]
    exact parts

theorem simplifyExponentsAll_eq_self {exprs : List Expr}
    (same : ∀ expr ∈ exprs, expr.simplifyExponents rules bound = (expr, [])) :
    simplifyExponentsAll rules bound exprs = (exprs, []) := by
  induction exprs with
  | nil => rfl
  | cons expr rest ih =>
    obtain ⟨first, others⟩ := List.forall_mem_cons.mp same
    simp [simplifyExponentsAll, first, ih others]

theorem simplifyExponents_eq_self (simplified : expr.IsSimplified rules bound) :
    expr.simplifyExponents rules bound = (expr, []) := by
  induction expr using parts_induction generalizing bound with
  | step expr ih =>
    obtain ⟨reduced, below⟩ := isSimplified_iff.mp simplified
    have parts := simplifyExponentsAll_eq_self fun child member =>
      ih child member (below child member)
    simp [simplifyExponents_eq, parts, withParts_children, (Exits.stays reduced).simplifyRoot_eq]

theorem simplifyExponents_of_parts
    (parts : ∀ child ∈ expr.children, child.IsSimplified rules (expr.binds ++ bound)) :
    expr.simplifyExponents rules bound = expr.simplifyRoot rules bound := by
  have same := simplifyExponentsAll_eq_self fun child member =>
    simplifyExponents_eq_self (parts child member)
  simp [simplifyExponents_eq, same, withParts_children]

theorem parts_isSimplified (rules : ExponentRules) (bound : List String) (expr : Expr) :
    let tree := expr.withParts (simplifyExponentsAll rules (expr.binds ++ bound) expr.children).1
    ∀ child ∈ tree.children, child.IsSimplified rules (tree.binds ++ bound) := by
  dsimp only
  rw [children_withParts (length_simplifyExponentsAll _ _), binds_withParts]
  exact simplifyExponentsAll_isSimplified fun child _ =>
    simplifyExponents_isSimplified rules (expr.binds ++ bound) child

mutual

/-- A visit to a tree: its parts are visited first, then the tree leaves as its exit says, or is
    visited again in the place of the old one, with parts that have been visited before. -/
inductive Visits (rules : ExponentRules) : List String → Expr → Expr → List Expr → Prop
  | leaves {bound : List String} {expr result : Expr} {parts restrictions more : List Expr}
      (inside : VisitsAll rules (expr.binds ++ bound) expr.children parts restrictions)
      (exits : Exits rules bound (expr.withParts parts) result more false) :
      Visits rules bound expr result (restrictions ++ more)
  | again {bound : List String} {expr next result : Expr}
      {parts restrictions more last : List Expr}
      (inside : VisitsAll rules (expr.binds ++ bound) expr.children parts restrictions)
      (exits : Exits rules bound (expr.withParts parts) next more true)
      (second : Visits rules bound next result last) :
      Visits rules bound expr result (restrictions ++ more ++ last)

inductive VisitsAll (rules : ExponentRules) :
    List String → List Expr → List Expr → List Expr → Prop
  | nil {bound : List String} : VisitsAll rules bound [] [] []
  | cons {bound : List String} {expr result : Expr} {rest results restrictions more : List Expr}
      (first : Visits rules bound expr result restrictions)
      (others : VisitsAll rules bound rest results more) :
      VisitsAll rules bound (expr :: rest) (result :: results) (restrictions ++ more)

end

mutual

theorem Visits.simplifyExponents_eq {bound : List String} {expr result : Expr}
    {restrictions : List Expr} : Visits rules bound expr result restrictions →
      expr.simplifyExponents rules bound = (result, restrictions)
  | .leaves inside exits => by
    simp [Expr.simplifyExponents_eq, inside.simplifyExponentsAll_eq, exits.simplifyRoot_eq]
  | .again inside exits second => by
    -- The second visit finds parts that the first one has simplified.
    have parts := parts_isSimplified rules bound expr
    have root := exits.simplifyRoot_eq
    rw [inside.simplifyExponentsAll_eq] at parts
    obtain ⟨rfl, below, -⟩ := exits.visitedAgain parts
    rw [if_pos rfl, ← simplifyExponents_of_parts below, second.simplifyExponents_eq] at root
    simp [Expr.simplifyExponents_eq, inside.simplifyExponentsAll_eq, root]

theorem VisitsAll.simplifyExponentsAll_eq {bound : List String} {exprs results : List Expr}
    {restrictions : List Expr} : VisitsAll rules bound exprs results restrictions →
      simplifyExponentsAll rules bound exprs = (results, restrictions)
  | .nil => rfl
  | .cons first others => by
    simp [simplifyExponentsAll, first.simplifyExponents_eq, others.simplifyExponentsAll_eq]

end

theorem visitsAll {exprs : List Expr}
    (visits : ∀ expr ∈ exprs, Visits rules bound expr (expr.simplifyExponents rules bound).1
      (expr.simplifyExponents rules bound).2) :
    VisitsAll rules bound exprs (simplifyExponentsAll rules bound exprs).1
      (simplifyExponentsAll rules bound exprs).2 := by
  induction exprs with
  | nil => exact .nil
  | cons expr rest ih =>
    obtain ⟨first, others⟩ := List.forall_mem_cons.mp visits
    exact .cons first (ih others)

theorem visits_of_parts (exits : Exits rules bound expr result more false)
    (parts : ∀ child ∈ expr.children, child.IsSimplified rules (expr.binds ++ bound) ∧
      Visits rules (expr.binds ++ bound) child child []) : Visits rules bound expr result more := by
  have same : ∀ child ∈ expr.children,
      child.simplifyExponents rules (expr.binds ++ bound) = (child, []) := fun child member =>
    simplifyExponents_eq_self (parts child member).1
  have inside := visitsAll fun child member => by
    rw [same child member]
    exact (parts child member).2
  rw [simplifyExponentsAll_eq_self same] at inside
  rw [← withParts_children expr] at exits
  exact .leaves inside exits

theorem visits_of_isSimplified (simplified : expr.IsSimplified rules bound) :
    Visits rules bound expr expr [] := by
  induction expr using parts_induction generalizing bound with
  | step expr ih =>
    obtain ⟨reduced, below⟩ := isSimplified_iff.mp simplified
    exact visits_of_parts (.stays reduced) fun child member =>
      ⟨below child member, ih child member (below child member)⟩

theorem visits_simplifyExponents (rules : ExponentRules) (bound : List String) (expr : Expr) :
    Visits rules bound expr (expr.simplifyExponents rules bound).1
      (expr.simplifyExponents rules bound).2 := by
  induction expr using parts_induction generalizing bound with
  | step expr ih =>
    have inside := visitsAll fun child member => ih child member (expr.binds ++ bound)
    obtain ⟨result, more, again, exits⟩ := exists_exits rules bound
      (expr.withParts (simplifyExponentsAll rules (expr.binds ++ bound) expr.children).1)
    rw [simplifyExponents_eq]
    dsimp only
    rw [exits.simplifyRoot_eq]
    cases again with
    | false => exact .leaves inside exits
    | true =>
      obtain ⟨rfl, below, last, restrictions, second⟩ :=
        exits.visitedAgain (parts_isSimplified rules bound expr)
      have visits := visits_of_parts second fun child member =>
        ⟨below child member, visits_of_isSimplified (below child member)⟩
      rw [if_pos rfl, second.simplifyRoot_eq]
      simpa using Visits.again inside exits visits

theorem Exits.silent {again : Bool} (kept : rules.allowDomainChanges = false)
    (exits : Exits rules bound expr result more again) : more = [] := by
  cases exits with
  | stays | power | logarithm => rfl
  | exponential allowed => simp [kept] at allowed

mutual

/-- Where domains may not change no restriction arises on the way. -/
theorem Visits.silent (kept : rules.allowDomainChanges = false) {bound : List String}
    {expr result : Expr} {restrictions : List Expr} :
    Visits rules bound expr result restrictions → restrictions = []
  | .leaves inside exits => by rw [inside.silent kept, exits.silent kept, List.append_nil]
  | .again inside exits second => by
    rw [inside.silent kept, exits.silent kept, second.silent kept, List.append_nil]
    rfl

theorem VisitsAll.silent (kept : rules.allowDomainChanges = false) {bound : List String}
    {exprs results restrictions : List Expr} :
    VisitsAll rules bound exprs results restrictions → restrictions = []
  | .nil => rfl
  | .cons first others => by rw [first.silent kept, others.silent kept, List.append_nil]

end

end Expr

/-- One pass leaves nothing to simplify: no power of the constant `e`, no logarithm of an
    exponential and, where domains may change, no exponential of a logarithm that could be lifted
    out of the definitions around it. A second pass changes nothing and restricts nothing. The pass
    is the visit that comes back to each power of `e` as an exponential. -/
theorem Pass.exponents_normal (rules : ExponentRules) (expr : Expr) :
    ∃ simple restrictions, (Pass.exponents rules).run expr = (simple, restrictions) ∧
      (∀ result emitted, Expr.Visits rules [] expr result emitted ↔
        result = simple ∧ emitted = restrictions) ∧
      (∀ part ∈ simple.scopedSubtrees [], part.2.IsReduced rules part.1) ∧
      (Pass.exponents rules).run simple = (simple, []) ∧
      (rules.allowDomainChanges = false → restrictions = []) := by
  have simplified := Expr.simplifyExponents_isSimplified rules [] expr
  have visits := Expr.visits_simplifyExponents rules [] expr
  refine ⟨_, _, rfl, fun result emitted => ⟨fun visited => ?_, ?_⟩, simplified,
    Expr.simplifyExponents_eq_self simplified, fun kept => visits.silent kept⟩
  · have same := visited.simplifyExponents_eq
    exact ⟨(congrArg Prod.fst same).symm, (congrArg Prod.snd same).symm⟩
  · rintro ⟨rfl, rfl⟩
    exact visits

end Formulary
