import Mathlib.Tactic.Tauto
import Formulary.Proofs.Expr.Names
import Formulary.Lowering.Literal
import Formulary.Simplify.Exponent

namespace Formulary

/-! Exponentials, logarithms and local functions. The pass takes every plain call of `exp` or
    `ln` for the builtin function, also where a definition of that name is in scope. All other
    calls of local functions stay, in their order. -/

/-- A call by the name of a function, without its arguments. -/
structure CallSite where
  name : String
  arity : Nat
  primed : Bool
deriving DecidableEq

/-- Whether the call is one that simplification takes for a builtin function. -/
def CallSite.isExponential (site : CallSite) : Bool :=
  (site.name == "exp" || site.name == "ln") && site.arity == 1 && !site.primed

namespace Expr

mutual

/-- Calls of a tree that reach a function of the scope or a definition of the tree itself, in
    the order in which they are written. -/
def localCalls (scope : List String) : Expr → List CallSite
  | number _ | text _ | var _ => []
  | unary _ operand => localCalls scope operand
  | binary _ operands => localCallsAll scope operands
  | member target _ => localCalls scope target
  | call name arguments primed =>
    let inside := localCallsAll scope arguments
    if name ∈ scope then ⟨name, arguments.length, primed⟩ :: inside else inside
  | define name _ body value =>
    localCalls (name :: scope) body ++ localCalls (name :: scope) value

def localCallsAll (scope : List String) : List Expr → List CallSite
  | [] => []
  | expr :: rest => localCalls scope expr ++ localCallsAll scope rest

end

variable {rules : ExponentRules} {bound scope : List String}

mutual

theorem name_mem_of_localCalls {site : CallSite} : ∀ (scope : List String) (expr : Expr),
    site ∈ expr.localCalls scope → site.name ∈ scope ++ expr.definitions
  | _, number _, found | _, text _, found | _, var _, found => by cases found
  | scope, unary _ operand, found => name_mem_of_localCalls scope operand found
  | scope, binary op operands, found => by
    rw [definitions_binary]
    exact name_mem_of_localCallsAll scope operands found
  | scope, member target _, found => name_mem_of_localCalls scope target found
  | scope, call name arguments primed, found => by
    rw [definitions_call]
    rw [localCalls] at found
    split at found
    case isTrue listed =>
      rcases List.mem_cons.mp found with rfl | found
      · exact List.mem_append_left _ listed
      · exact name_mem_of_localCallsAll scope arguments found
    case isFalse => exact name_mem_of_localCallsAll scope arguments found
  | scope, define name parameters body value, found => by
    rw [definitions_define]
    rcases List.mem_append.mp found with found | found
    · have inside := name_mem_of_localCalls (name :: scope) body found
      simp only [List.mem_append, List.mem_cons] at inside ⊢
      tauto
    · have inside := name_mem_of_localCalls (name :: scope) value found
      simp only [List.mem_append, List.mem_cons] at inside ⊢
      tauto

theorem name_mem_of_localCallsAll {site : CallSite} : ∀ (scope : List String) (exprs : List Expr),
    site ∈ localCallsAll scope exprs → site.name ∈ scope ++ exprs.flatMap definitions
  | _, [], found => by cases found
  | scope, expr :: rest, found => by
    rw [List.flatMap_cons]
    rcases List.mem_append.mp found with found | found
    · have inside := name_mem_of_localCalls scope expr found
      simp only [List.mem_append] at inside ⊢
      tauto
    · have inside := name_mem_of_localCallsAll scope rest found
      simp only [List.mem_append] at inside ⊢
      tauto

end

/-- What the root of a tree can become. -/
inductive Cancels : Expr → Expr → Prop
  | same {expr} : Cancels expr expr
  | power {exponent result} (cancels : Cancels (call "exp" [exponent] false) result) :
      Cancels (binary .power [var "e", exponent]) result
  | logarithm {inner} : Cancels (call "ln" [call "exp" [inner] false] false) inner
  | exponential {inner} : Cancels (call "exp" [call "ln" [inner] false] false) inner

theorem argumentOf?_eq_some {name : String} {expr argument : Expr}
    (found : expr.argumentOf? name = some argument) : expr = call name [argument] false := by
  unfold argumentOf? at found
  split at found
  · split at found
    case isTrue named =>
      cases found
      rw [eq_of_beq named]
    case isFalse => cases found
  · cases found

theorem exponentOfE?_eq_some {expr exponent : Expr}
    (found : expr.exponentOfE? = some exponent) :
    expr = binary .power [var "e", exponent] := by
  unfold exponentOfE? at found
  split at found
  · split at found
    case isTrue named =>
      cases found
      rw [eq_of_beq named]
    case isFalse => cases found
  · cases found

theorem nested_argumentOf? {outer inner : String} {expr argument : Expr}
    (found : (expr.argumentOf? outer).bind (argumentOf? inner) = some argument) :
    expr = call outer [call inner [argument] false] false := by
  obtain ⟨middle, first, second⟩ := Option.bind_eq_some_iff.mp found
  rw [argumentOf?_eq_some first, argumentOf?_eq_some second]

theorem cancelLogarithm_cancels (expr : Expr) :
    Cancels expr (expr.cancelLogarithm rules bound).1 := by
  unfold cancelLogarithm
  split
  case h_1 inner found => exact nested_argumentOf? found ▸ .logarithm
  case h_2 =>
    split
    case h_1 inner found =>
      split
      · exact nested_argumentOf? found ▸ .exponential
      · exact .same
    case h_2 => exact .same

theorem simplifyRoot_cancels (expr : Expr) :
    Cancels expr (expr.simplifyRoot rules bound).1 := by
  unfold simplifyRoot
  split
  case h_1 exponent found =>
    split
    · exact .same
    · exact exponentOfE?_eq_some found ▸ .power (cancelLogarithm_cancels _)
  case h_2 => exact cancelLogarithm_cancels expr

/-- Local calls that are not taken for builtin ones. -/
def keptCalls (scope : List String) (expr : Expr) : List CallSite :=
  (expr.localCalls scope).filter (!·.isExponential)

theorem Cancels.keptCalls {expr result : Expr} (cancels : Cancels expr result) :
    result.keptCalls scope = expr.keptCalls scope := by
  induction cancels with
  | same => rfl
  | power _ ih =>
    rw [ih]
    simp only [Expr.keptCalls, localCalls, localCallsAll]
    split <;> simp [CallSite.isExponential]
  | logarithm | exponential =>
    simp only [Expr.keptCalls, localCalls, localCallsAll]
    split <;> split <;> simp [CallSite.isExponential]

theorem Cancels.definitions {expr result : Expr} (cancels : Cancels expr result) :
    result.definitions = expr.definitions := by
  induction cancels with
  | same => rfl
  | power _ ih => rw [ih]; simp; rfl
  | logarithm | exponential => simp

theorem length_simplifyExponentsAll (bound : List String) (exprs : List Expr) :
    (simplifyExponentsAll rules bound exprs).1.length = exprs.length := by
  induction exprs with
  | nil => rfl
  | cons expr rest ih => rw [simplifyExponentsAll, List.length_cons, ih, List.length_cons]

mutual

theorem keptCalls_simplifyExponents : ∀ (bound scope : List String) (expr : Expr),
    (expr.simplifyExponents rules bound).1.keptCalls scope = expr.keptCalls scope
  | _, _, number _ | _, _, text _ | _, _, var _ => rfl
  | bound, scope, unary op operand => keptCalls_simplifyExponents bound scope operand
  | bound, scope, binary op operands => by
    rw [simplifyExponents, (simplifyRoot_cancels _).keptCalls]
    exact filter_localCallsAll bound scope operands
  | bound, scope, member target name => keptCalls_simplifyExponents bound scope target
  | bound, scope, call name arguments primed => by
    have inside := filter_localCallsAll bound scope arguments
    rw [simplifyExponents, (simplifyRoot_cancels _).keptCalls, keptCalls, keptCalls, localCalls,
      localCalls, length_simplifyExponentsAll]
    split
    · rw [List.filter_cons, List.filter_cons, inside]
    · exact inside
  | bound, scope, define name parameters body value => by
    have bodies := keptCalls_simplifyExponents (parameters ++ bound)
      (name :: scope) body
    have values := keptCalls_simplifyExponents (parameters ++ bound)
      (name :: scope) value
    unfold keptCalls at bodies values ⊢
    rw [simplifyExponents, localCalls, localCalls, List.filter_append, List.filter_append,
      bodies, values]

theorem filter_localCallsAll : ∀ (bound scope : List String) (exprs : List Expr),
    (localCallsAll scope (simplifyExponentsAll rules bound exprs).1).filter (!·.isExponential) =
      (localCallsAll scope exprs).filter (!·.isExponential)
  | _, _, [] => rfl
  | bound, scope, expr :: rest => by
    have first := keptCalls_simplifyExponents bound scope expr
    have others := filter_localCallsAll bound scope rest
    unfold keptCalls at first
    rw [simplifyExponentsAll, localCallsAll, localCallsAll, List.filter_append,
      List.filter_append, first, others]

end

mutual

theorem definitions_simplifyExponents : ∀ (bound : List String) (expr : Expr),
    (expr.simplifyExponents rules bound).1.definitions = expr.definitions
  | _, number _ | _, text _ | _, var _ => rfl
  | bound, unary op operand => definitions_simplifyExponents bound operand
  | bound, binary op operands => by
    rw [simplifyExponents, (simplifyRoot_cancels _).definitions, definitions_binary,
      definitions_binary, definitions_simplifyExponentsAll bound operands]
  | bound, member target name => definitions_simplifyExponents bound target
  | bound, call name arguments primed => by
    rw [simplifyExponents, (simplifyRoot_cancels _).definitions, definitions_call,
      definitions_call, definitions_simplifyExponentsAll bound arguments]
  | bound, define name parameters body value => by
    rw [simplifyExponents, definitions_define, definitions_define,
      definitions_simplifyExponents _ body, definitions_simplifyExponents _ value]

theorem definitions_simplifyExponentsAll : ∀ (bound : List String) (exprs : List Expr),
    (simplifyExponentsAll rules bound exprs).1.flatMap definitions = exprs.flatMap definitions
  | _, [] => rfl
  | bound, expr :: rest => by
    rw [simplifyExponentsAll, List.flatMap_cons, List.flatMap_cons,
      definitions_simplifyExponents bound expr, definitions_simplifyExponentsAll bound rest]

end

/-- Without a local `exp` or `ln` no local call is taken for a builtin one. -/
theorem keptCalls_eq {expr : Expr}
    (undefined : ∀ name ∈ ["exp", "ln"], name ∉ scope ++ expr.definitions) :
    expr.keptCalls scope = expr.localCalls scope := by
  rw [keptCalls, List.filter_eq_self]
  intro site found
  have named := name_mem_of_localCalls scope expr found
  have other : site.name ≠ "exp" ∧ site.name ≠ "ln" :=
    ⟨fun same => undefined "exp" (by simp) (same ▸ named),
      fun same => undefined "ln" (by simp) (same ▸ named)⟩
  simp [CallSite.isExponential, other]

/-- Simplification keeps the calls of local functions in their order, apart from plain calls of
    `exp` and `ln`; where the tree and its scope define neither name, it keeps all of them and
    adds none. -/
theorem simplifyExponents_localCalls (rules : ExponentRules) (bound scope : List String)
    (expr : Expr) :
    (((expr.simplifyExponents rules bound).1.localCalls scope).filter fun site =>
        !site.isExponential) =
      ((expr.localCalls scope).filter fun site => !site.isExponential) ∧
    ((∀ name ∈ ["exp", "ln"], name ∉ scope ++ expr.definitions) →
      (expr.simplifyExponents rules bound).1.localCalls scope = expr.localCalls scope) := by
  have kept : (expr.simplifyExponents rules bound).1.keptCalls scope = expr.keptCalls scope :=
    keptCalls_simplifyExponents bound scope expr
  refine ⟨kept, fun undefined => ?_⟩
  rwa [keptCalls_eq undefined, keptCalls_eq] at kept
  rwa [definitions_simplifyExponents]

/-- `f'(t) = t + 1; ln(exp(f'(e ^ 2)))` becomes `f'(t) = t + 1; f'(exp(2))`. -/
theorem logarithm_of_local_localCalls :
    let expr := define "f" ["t"] (binary .add [var "t", number (.ofInt 1)])
      (call "ln" [call "exp" [call "f" [binary .power [var "e", number (.ofInt 2)]] true] false]
        false)
    (∀ name ∈ ["exp", "ln"], name ∉ [] ++ expr.definitions) ∧
    (expr.simplifyExponents ⟨[], true⟩ []).1.localCalls [] = [⟨"f", 1, true⟩] := by
  intro expr
  have undefined : ∀ name ∈ ["exp", "ln"], name ∉ [] ++ expr.definitions := by decide
  exact ⟨undefined, (simplifyExponents_localCalls ⟨[], true⟩ [] [] expr).2 undefined⟩

/-- Below a definition `exp'(t) = t + 1`, the call in `ln(exp(2))` is removed and `e ^ 2` is made
    one. -/
theorem shadowed_exp_localCalls :
    let shadowed := define "exp" ["t"] (binary .add [var "t", number (.ofInt 1)])
    let removed := shadowed (call "ln" [call "exp" [number (.ofInt 2)] false] false)
    let added := shadowed (binary .power [var "e", number (.ofInt 2)])
    removed.localCalls [] = [⟨"exp", 1, false⟩] ∧
    (removed.simplifyExponents ⟨[], false⟩ []).1.localCalls [] = [] ∧
    added.localCalls [] = [] ∧
    (added.simplifyExponents ⟨[], false⟩ []).1.localCalls [] = [⟨"exp", 1, false⟩] := by
  decide

end Expr

end Formulary
