import Formulary.Proofs.Simplify.Exponent
import Formulary.Proofs.Simplify.Scalar
import Formulary.Proofs.Simplify.Substitute

namespace Formulary.Expr

/-! Trees over numbers and truth values stay such trees when exponentials are simplified. The
    restrictions that arise are lifted out of the tree, away from the parameters and functions
    around them, so they have to name neither. -/

mutual

/-- Functions that a tree calls and that no definition of the tree stands for. -/
def freeCallees (defined : List String) : Expr → List String
  | number _ | text _ | var _ => []
  | unary _ operand => freeCallees defined operand
  | binary _ operands => freeCalleesAll defined operands
  | member target _ => freeCallees defined target
  | call name arguments _ =>
    (if name ∈ defined then [] else [name]) ++ freeCalleesAll defined arguments
  | define name _ body value =>
    freeCallees (name :: defined) body ++ freeCallees (name :: defined) value

def freeCalleesAll (defined : List String) : List Expr → List String
  | [] => []
  | expr :: rest => freeCallees defined expr ++ freeCalleesAll defined rest

end

variable {compiler : Compiler} {place : Place} {parameters kept bound defined : List String}
variable {functions own outer : List (String × Nat)} {expr inner : Expr} {exprs : List Expr}
variable {rules : ExponentRules}

theorem freeCalleesAll_eq (exprs : List Expr) :
    freeCalleesAll defined exprs = exprs.flatMap (freeCallees defined) := by
  induction exprs with
  | nil => rfl
  | cons expr rest ih => rw [freeCalleesAll, ih, List.flatMap_cons]

theorem freeVariablesAll_eq (exprs : List Expr) :
    freeVariablesAll bound exprs = exprs.flatMap (freeVariables bound) := by
  induction exprs with
  | nil => rfl
  | cons expr rest ih => rw [freeVariablesAll, ih, List.flatMap_cons]

/-- A tree names none of the functions in `outer`, and none of the parameters unless they are
    kept. -/
structure Apart (parameters kept : List String) (own outer : List (String × Nat)) (expr : Expr) :
    Prop where
  names : kept = parameters ∨ kept = [] ∧ ∀ name ∈ expr.freeVariables [], name ∉ parameters
  calls : ∀ name ∈ expr.freeCallees (own.map Prod.fst), outer.lookup name = none

namespace Apart

theorem part {whole part : Expr} (apart : Apart parameters kept own outer whole)
    (names : part.freeVariables [] ⊆ whole.freeVariables [])
    (calls : part.freeCallees (own.map Prod.fst) ⊆ whole.freeCallees (own.map Prod.fst)) :
    Apart parameters kept own outer part where
  names := apart.names.imp_right fun none_ => ⟨none_.1, fun name free => none_.2 name (names free)⟩
  calls := fun name called => apart.calls name (calls called)

theorem operand {op : Operator} {operands : List Expr}
    (apart : Apart parameters kept own outer (binary op operands)) (member : expr ∈ operands) :
    Apart parameters kept own outer expr := by
  refine apart.part (fun name free => ?_) fun name called => ?_
  · rw [freeVariables, freeVariablesAll_eq]
    exact List.mem_flatMap_of_mem member free
  · rw [freeCallees, freeCalleesAll_eq]
    exact List.mem_flatMap_of_mem member called

theorem argument {name : String} {arguments : List Expr} {primed : Bool}
    (apart : Apart parameters kept own outer (call name arguments primed))
    (member : expr ∈ arguments) : Apart parameters kept own outer expr := by
  refine apart.part (fun name free => ?_) fun name called => ?_
  · rw [freeVariables, freeVariablesAll_eq]
    exact List.mem_flatMap_of_mem member free
  · rw [freeCallees, freeCalleesAll_eq]
    exact List.mem_append_right _ (List.mem_flatMap_of_mem member called)

theorem not_mem {name : String} (apart : Apart parameters kept own outer expr)
    (free : name ∉ parameters) : name ∉ kept := by
  rcases apart.names with rfl | ⟨rfl, -⟩
  · exact free
  · exact List.not_mem_nil

end Apart

theorem lookup_eq_none {name : String} :
    functions.lookup name = none ↔ name ∉ functions.map Prod.fst := by
  rw [List.lookup_eq_none_iff, List.mem_map]
  constructor
  · rintro others ⟨entry, member, rfl⟩
    simpa using others entry member
  · intro absent entry member
    exact bne_iff_ne.mpr fun same => absent ⟨entry, member, same.symm⟩

theorem lookup_own {name : String} (absent : (own ++ outer).lookup name = none) :
    own.lookup name = none := by
  rw [List.lookup_append, Option.or_eq_none_iff] at absent
  exact absent.1

theorem lifted_scalar (scalar : Scalar compiler place parameters (own ++ outer) expr)
    (apart : Apart parameters kept own outer expr) : Scalar compiler place kept own expr := by
  generalize whole : own ++ outer = functions at scalar
  induction scalar generalizing own kept with
  | number value => exact .number value
  | parameter listed =>
    rcases apart.names with rfl | ⟨-, others⟩
    · exact .parameter listed
    · exact absurd listed (others _ (by simp [freeVariables]))
  | input free given suits number => exact .input (apart.not_mem free) given suits number
  | constant free absent known finite => exact .constant (apart.not_mem free) absent known finite
  | unary _ ih => exact .unary (ih (apart.part (List.Subset.refl _) (List.Subset.refl _)) whole)
  | binary other several pair _ ih =>
    exact .binary other several pair fun operand member =>
      ih operand member (apart.operand member) whole
  | power away several _ ih =>
    exact .power away several fun operand member =>
      ih operand member (apart.operand member) whole
  | choice builtin _ _ _ truth left right =>
    exact .choice (lookup_own (whole ▸ builtin)) (truth (apart.argument (by simp)) whole)
      (left (apart.argument (by simp)) whole) (right (apart.argument (by simp)) whole)
  | math other builtin arity _ ih =>
    exact .math other (lookup_own (whole ▸ builtin)) arity fun argument member =>
      ih argument member (apart.argument member) whole
  | exponential away either builtin _ ih =>
    exact .exponential away either (lookup_own (whole ▸ builtin))
      (ih (apart.argument (by simp)) whole)
  | @call _ _ _ name arguments _ away returns known _ ih =>
    -- The function is one of its own: otherwise the call would name one that is left out.
    have reached : own.lookup name = some arguments.length := by
      rw [← whole, List.lookup_append] at known
      cases found : own.lookup name with
      | some count => rwa [found] at known
      | none =>
        rw [found, Option.none_or, apart.calls name ?_] at known
        · cases known
        · simp [freeCallees, lookup_eq_none.mp found]
    exact .call away returns reached fun argument member =>
      ih argument member (apart.argument member) whole
  | @define _ _ _ name own' body value other _ _ inside outside =>
    -- A body has only the parameters of its definition, and these are kept.
    have body : Apart own' own' ((name, own'.length) :: own) outer body :=
      ⟨.inl rfl, fun name called => apart.calls name (List.mem_append_left _ called)⟩
    have value : Apart _ kept ((name, own'.length) :: own) outer value :=
      ⟨apart.names.imp_right fun none_ => ⟨none_.1, fun name free =>
          none_.2 name (List.mem_append_right _ free)⟩,
        fun name called => apart.calls name (List.mem_append_right _ called)⟩
    exact .define other (inside body (by rw [← whole]; rfl)) (outside value (by rw [← whole]; rfl))

/-- Calls of `exp` and `ln` ask for a number, also where a definition stands for the name. -/
theorem exponential_scalar {name : String} {argument : Expr} {primed : Bool}
    (named : name = "exp" ∨ name = "ln")
    (scalar : Scalar compiler place parameters functions (call name [argument] primed)) :
    place ≠ .condition ∧ Scalar compiler .number parameters functions argument := by
  generalize shape : call name [argument] primed = expr at scalar
  cases scalar with
  | number | parameter | input | constant | unary | binary | power | choice | define => cases shape
  | @math _ _ _ _ function other =>
    cases shape
    exfalso
    revert named other
    cases function <;> decide
  | exponential away _ _ inside =>
    cases shape
    exact ⟨away, inside⟩
  | call away _ _ inside =>
    cases shape
    exact ⟨away, inside argument (List.mem_singleton_self _)⟩

theorem power_scalar {operands : List Expr}
    (scalar : Scalar compiler place parameters functions (binary .power operands)) :
    place ≠ .condition ∧
      ∀ operand ∈ operands, Scalar compiler .number parameters functions operand := by
  cases scalar with
  | binary other => exact absurd rfl other
  | power away _ inside => exact ⟨away, inside⟩

theorem Cancels.scalar {result : Expr} (cancels : Cancels expr result)
    (builtin : functions.lookup "exp" = none)
    (scalar : Scalar compiler place parameters functions expr) :
    Scalar compiler place parameters functions result := by
  induction cancels with
  | same => exact scalar
  | power _ ih =>
    obtain ⟨away, inside⟩ := power_scalar scalar
    have either : MathFunction.exp = .exp ∨ MathFunction.exp = .ln := .inl rfl
    exact ih (.exponential away either builtin (inside _ (by simp)))
  | logarithm =>
    obtain ⟨away, middle⟩ := exponential_scalar (.inr rfl) scalar
    exact (exponential_scalar (.inl rfl) middle).2.of_number away
  | exponential =>
    obtain ⟨away, middle⟩ := exponential_scalar (.inl rfl) scalar
    exact (exponential_scalar (.inr rfl) middle).2.of_number away

/-- A restriction arises where an exponential of a logarithm is cancelled, in either form. -/
theorem mem_simplifyRoot {restriction : Expr}
    (emitted : restriction ∈ (expr.simplifyRoot rules bound).2) :
    ∃ inner, restriction = inner.notPositive ∧ disjointNames (inner.freeVariables []) bound ∧
      (expr = call "exp" [call "ln" [inner] false] false ∨
        expr = binary .power [var "e", call "ln" [inner] false]) := by
  have of_cancel : ∀ {expr : Expr}, restriction ∈ (expr.cancelLogarithm rules bound).2 →
      ∃ inner, restriction = inner.notPositive ∧ disjointNames (inner.freeVariables []) bound ∧
        expr = call "exp" [call "ln" [inner] false] false := by
    intro expr emitted
    unfold cancelLogarithm at emitted
    split at emitted
    · cases emitted
    · split at emitted
      case h_1 inner found =>
        split at emitted
        case isTrue allowed =>
          exact ⟨inner, List.mem_singleton.mp emitted, (Bool.and_eq_true_iff.mp allowed).2,
            nested_argumentOf? found⟩
        case isFalse => cases emitted
      case h_2 => cases emitted
  unfold simplifyRoot at emitted
  split at emitted
  case h_1 exponent found =>
    split at emitted
    · cases emitted
    · obtain ⟨inner, same, free, shape⟩ := of_cancel emitted
      cases shape
      exact ⟨inner, same, free, .inr (exponentOfE?_eq_some found)⟩
  case h_2 =>
    obtain ⟨inner, same, free, shape⟩ := of_cancel emitted
    exact ⟨inner, same, free, .inl shape⟩

/-- Restrictions that call none of the given functions can be checked ahead of the formula. -/
def Lifts (compiler : Compiler) (defined : List String) (restrictions : List Expr) : Prop :=
  ∀ restriction ∈ restrictions, disjointNames (restriction.freeCallees []) defined →
    Scalar compiler .condition [] [] restriction

theorem simplifyRoot_lifts (scalar : Scalar compiler place parameters functions expr)
    (within : parameters ⊆ bound) (listed : functions.map Prod.fst ⊆ defined) :
    Lifts compiler defined (expr.simplifyRoot rules bound).2 := by
  intro restriction emitted apart
  obtain ⟨inner, rfl, free, shape⟩ := mem_simplifyRoot emitted
  have number : Scalar compiler .number parameters functions inner := by
    rcases shape with rfl | rfl
    · exact (exponential_scalar (.inr rfl) (exponential_scalar (.inl rfl) scalar).2).2
    · have exponent := (power_scalar scalar).2 (.call "ln" [inner] false) (by simp)
      exact (exponential_scalar (.inr rfl) exponent).2
  have lifted : Scalar compiler .number [] [] inner := by
    refine lifted_scalar number ⟨.inr ⟨rfl, fun name named parameter => ?_⟩, fun name called => ?_⟩
    · exact disjointNames_iff.mp free name named (within parameter)
    · rw [lookup_eq_none]
      refine fun local_ => disjointNames_iff.mp apart name ?_ (listed local_)
      simpa [notPositive, freeCallees, freeCalleesAll] using called
  exact .pair (by decide) (lifted.of_number (by decide)) (.number _)

theorem simplifyExponentsAll_eq (exprs : List Expr) :
    simplifyExponentsAll rules bound exprs =
      (exprs.map fun expr => (expr.simplifyExponents rules bound).1,
        exprs.flatMap fun expr => (expr.simplifyExponents rules bound).2) := by
  induction exprs with
  | nil => rfl
  | cons expr rest ih => rw [simplifyExponentsAll, ih, List.map_cons, List.flatMap_cons]

theorem Lifts.flatMap {emitted : Expr → List Expr}
    (parts : ∀ expr ∈ exprs, Lifts compiler defined (emitted expr)) :
    Lifts compiler defined (exprs.flatMap emitted) := by
  intro restriction member
  obtain ⟨expr, listed, member⟩ := List.mem_flatMap.mp member
  exact parts expr listed restriction member

theorem Lifts.append {restrictions more : List Expr} (lifts : Lifts compiler defined restrictions)
    (others : Lifts compiler defined more) : Lifts compiler defined (restrictions ++ more) :=
  fun restriction member => (List.mem_append.mp member).elim (lifts restriction) (others restriction)

/-- What simplification makes of a tree at a place. -/
structure Simplified (compiler : Compiler) (place : Place) (parameters : List String)
    (functions : List (String × Nat)) (defined : List String) (result : Expr × List Expr) :
    Prop where
  tree : Scalar compiler place parameters functions result.1
  lifts : Lifts compiler defined result.2

theorem simplifyRoot_simplified (scalar : Scalar compiler place parameters functions expr)
    (within : parameters ⊆ bound) (builtin : functions.lookup "exp" = none)
    (listed : functions.map Prod.fst ⊆ defined) {restrictions : List Expr}
    (others : Lifts compiler defined restrictions) :
    Simplified compiler place parameters functions defined
      ((expr.simplifyRoot rules bound).1, restrictions ++ (expr.simplifyRoot rules bound).2) where
  tree := (simplifyRoot_cancels expr).scalar builtin scalar
  lifts := others.append (simplifyRoot_lifts scalar within listed)

theorem part_listed (listed : functions.map Prod.fst ++ exprs.flatMap definitions ⊆ defined)
    (member : expr ∈ exprs) : functions.map Prod.fst ++ expr.definitions ⊆ defined := by
  rw [List.append_subset] at listed ⊢
  exact ⟨listed.1, fun name found => listed.2 (List.mem_flatMap_of_mem member found)⟩

theorem binary_simplified {op : Operator}
    (scalar : Scalar compiler place parameters functions
      (binary op (exprs.map fun expr => (expr.simplifyExponents rules bound).1)))
    (within : parameters ⊆ bound) (builtin : functions.lookup "exp" = none)
    (listed : functions.map Prod.fst ++ exprs.flatMap definitions ⊆ defined)
    (parts : ∀ expr ∈ exprs, Lifts compiler defined (expr.simplifyExponents rules bound).2) :
    Simplified compiler place parameters functions defined
      ((binary op exprs).simplifyExponents rules bound) := by
  rw [simplifyExponents, simplifyExponentsAll_eq]
  exact simplifyRoot_simplified scalar within builtin (List.append_subset.mp listed).1
    (.flatMap parts)

theorem call_simplified {name : String} {primed : Bool}
    (scalar : Scalar compiler place parameters functions
      (call name (exprs.map fun expr => (expr.simplifyExponents rules bound).1) primed))
    (within : parameters ⊆ bound) (builtin : functions.lookup "exp" = none)
    (listed : functions.map Prod.fst ++ exprs.flatMap definitions ⊆ defined)
    (parts : ∀ expr ∈ exprs, Lifts compiler defined (expr.simplifyExponents rules bound).2) :
    Simplified compiler place parameters functions defined
      ((call name exprs primed).simplifyExponents rules bound) := by
  rw [simplifyExponents, simplifyExponentsAll_eq]
  exact simplifyRoot_simplified scalar within builtin (List.append_subset.mp listed).1
    (.flatMap parts)

/-- Simplification keeps trees over numbers and truth values what they are, and its restrictions
    can be checked ahead of the formula where they call none of its definitions. -/
theorem simplifyExponents_simplified (scalar : Scalar compiler place parameters functions expr)
    (within : parameters ⊆ bound) (builtin : functions.lookup "exp" = none)
    (listed : functions.map Prod.fst ++ expr.definitions ⊆ defined) :
    Simplified compiler place parameters functions defined
      (expr.simplifyExponents rules bound) := by
  -- By induction on the class and not on the tree: the place says what each part may become.
  induction scalar generalizing bound with
  | number value => exact ⟨.number value, by simp [Lifts, simplifyExponents]⟩
  | parameter named => exact ⟨.parameter named, by simp [Lifts, simplifyExponents]⟩
  | input free given suits number =>
    exact ⟨.input free given suits number, by simp [Lifts, simplifyExponents]⟩
  | constant free absent known finite =>
    exact ⟨.constant free absent known finite, by simp [Lifts, simplifyExponents]⟩
  | unary _ ih =>
    have inside := ih within builtin listed
    exact ⟨.unary inside.tree, inside.lifts⟩
  | binary other several pair _ ih =>
    rw [definitions_binary] at listed
    have inside := fun operand member =>
      ih operand member within builtin (part_listed listed member)
    have rebuilt := List.forall_mem_map.mpr fun operand member => (inside operand member).tree
    exact binary_simplified (.binary other (by simpa using several) (by simpa using pair) rebuilt)
      within builtin listed fun operand member => (inside operand member).lifts
  | power away several _ ih =>
    rw [definitions_binary] at listed
    have inside := fun operand member =>
      ih operand member within builtin (part_listed listed member)
    have rebuilt := List.forall_mem_map.mpr fun operand member => (inside operand member).tree
    exact binary_simplified (.power away (by simpa using several) rebuilt) within builtin listed
      fun operand member => (inside operand member).lifts
  | choice conditional _ _ _ truth left right =>
    rw [definitions_call] at listed
    have truth := truth within builtin (part_listed listed (by simp))
    have left := left within builtin (part_listed listed (by simp))
    have right := right within builtin (part_listed listed (by simp))
    exact call_simplified (.choice conditional truth.tree left.tree right.tree) within builtin
      listed (by simpa using ⟨truth.lifts, left.lifts, right.lifts⟩)
  | math other mathematical arity _ ih =>
    rw [definitions_call] at listed
    have inside := fun argument member =>
      ih argument member within builtin (part_listed listed member)
    have rebuilt := List.forall_mem_map.mpr fun argument member => (inside argument member).tree
    exact call_simplified (.math other mathematical (by simpa using arity) rebuilt) within builtin
      listed fun argument member => (inside argument member).lifts
  | exponential away either mathematical _ ih =>
    rw [definitions_call] at listed
    have inside := ih within builtin (part_listed listed (by simp))
    exact call_simplified (.exponential away either mathematical inside.tree) within builtin
      listed (by simpa using inside.lifts)
  | call away returns known _ ih =>
    rw [definitions_call] at listed
    have inside := fun argument member =>
      ih argument member within builtin (part_listed listed member)
    have rebuilt := List.forall_mem_map.mpr fun argument member => (inside argument member).tree
    exact call_simplified (.call away returns (by simpa using known) rebuilt) within builtin
      listed fun argument member => (inside argument member).lifts
  | @define _ _ functions name own body value other _ _ inside outside =>
    have still : ((name, own.length) :: functions).lookup "exp" = none := by
      rw [List.lookup_cons, beq_false_of_ne (Ne.symm other), builtin]
    have names : ∀ part ∈ [body, value],
        ((name, own.length) :: functions).map Prod.fst ++ part.definitions ⊆ defined := by
      intro part member
      refine List.Subset.trans (fun other => ?_) listed
      simp only [definitions_define, List.map_cons, List.mem_append, List.mem_cons,
        List.not_mem_nil] at member ⊢
      rcases member with rfl | rfl | member <;> tauto
    have body := inside (List.subset_append_left own bound) still (names body (by simp))
    have value := outside (List.Subset.trans within (List.subset_append_right own bound)) still
      (names value (by simp))
    exact ⟨.define other body.tree value.tree, body.lifts.append value.lifts⟩

end Formulary.Expr
