import Formulary.Proofs.Expr.Scalar
import Formulary.Proofs.Simplify.Decimals

namespace Formulary.Expr

/-! Trees over numbers and truth values stay such trees when chains are flattened and literals are
    folded. -/

variable {compiler : Compiler} {place : Place} {parameters : List String}
variable {functions : List (String × Nat)} {expr : Expr} {op : Operator} {operands : List Expr}

theorem rewriteAll_eq_map (unaryOf : UnaryOperator → Expr → Expr)
    (binaryOf : Operator → List Expr → Expr) (exprs : List Expr) :
    rewriteAll unaryOf binaryOf exprs = exprs.map (rewrite unaryOf binaryOf) := by
  induction exprs with
  | nil => rfl
  | cons expr rest ih => rw [rewriteAll, ih, List.map_cons]

theorem rewrite_scalar {unaryOf : UnaryOperator → Expr → Expr}
    {binaryOf : Operator → List Expr → Expr}
    (unaryKept : ∀ {place parameters functions op operand},
      Scalar compiler place parameters functions (unary op operand) →
        Scalar compiler place parameters functions (unaryOf op operand))
    (binaryKept : ∀ {place parameters functions op operands},
      Scalar compiler place parameters functions (binary op operands) →
        Scalar compiler place parameters functions (binaryOf op operands))
    (scalar : Scalar compiler place parameters functions expr) :
    Scalar compiler place parameters functions (expr.rewrite unaryOf binaryOf) := by
  induction scalar with
  | number value => exact .number value
  | parameter bound => exact .parameter bound
  | input free given suits number => exact .input free given suits number
  | constant free absent known finite => exact .constant free absent known finite
  | unary _ ih => exact unaryKept (.unary ih)
  | binary other several pair _ ih =>
    rw [rewrite, rewriteAll_eq_map]
    exact binaryKept (.binary other (by rwa [List.length_map]) (by rwa [List.length_map])
      (List.forall_mem_map.mpr ih))
  | power away several _ ih =>
    rw [rewrite, rewriteAll_eq_map]
    exact binaryKept (.power away (by rwa [List.length_map]) (List.forall_mem_map.mpr ih))
  | choice builtin _ _ _ truth left right => exact .choice builtin truth left right
  | math other builtin arity _ ih =>
    rw [rewrite, rewriteAll_eq_map]
    exact .math other builtin (by rwa [List.length_map]) (List.forall_mem_map.mpr ih)
  | exponential away either builtin _ ih => exact .exponential away either builtin ih
  | call away returns known _ ih =>
    rw [rewrite, rewriteAll_eq_map]
    exact .call away returns (by rwa [List.length_map]) (List.forall_mem_map.mpr ih)
  | define other _ _ inside outside => exact .define other inside outside

theorem operands_scalar (scalar : Scalar compiler place parameters functions (binary op operands)) :
    2 ≤ operands.length ∧ (op.isComparison → operands.length = 2) ∧
    (∀ operand ∈ operands, Scalar compiler (if op = .power then .number else .scalar) parameters
      functions operand) ∧
    ∀ {others : List Expr}, 2 ≤ others.length → (op.isComparison → others.length = 2) →
      (∀ operand ∈ others, Scalar compiler (if op = .power then .number else .scalar) parameters
        functions operand) →
      Scalar compiler place parameters functions (binary op others) := by
  cases scalar with
  | binary other several pair inside =>
    rw [if_neg other]
    exact ⟨several, pair, inside, fun several pair inside => .binary other several pair inside⟩
  | power away several inside =>
    rw [if_pos rfl]
    exact ⟨several, nofun, inside, fun several _ inside => .power away several inside⟩

theorem spliced_scalar (other : op ≠ .power)
    (scalar : Scalar compiler .scalar parameters functions expr) :
    spliced op expr ≠ [] ∧
      ∀ operand ∈ spliced op expr, Scalar compiler .scalar parameters functions operand := by
  unfold spliced
  split
  · rename_i inner operands
    split
    · rename_i same
      obtain rfl : inner = op := eq_of_beq same
      obtain ⟨several, -, inside, -⟩ := operands_scalar scalar
      rw [if_neg other] at inside
      refine ⟨?_, inside⟩
      rw [← List.length_pos_iff]
      omega
    · exact ⟨List.cons_ne_nil _ _, fun operand member => List.mem_singleton.mp member ▸ scalar⟩
  · exact ⟨List.cons_ne_nil _ _, fun operand member => List.mem_singleton.mp member ▸ scalar⟩

theorem length_le_flatMap {α β : Type} {items : List α} {f : α → List β}
    (some_ : ∀ item ∈ items, f item ≠ []) : items.length ≤ (items.flatMap f).length := by
  induction items with
  | nil => exact Nat.le_refl _
  | cons item rest ih =>
    have one := List.length_pos_iff.mpr (some_ item List.mem_cons_self)
    have others := ih fun other member => some_ other (List.mem_cons_of_mem _ member)
    rw [List.flatMap_cons, List.length_append, List.length_cons]
    omega

theorem flatten_scalar (keptApart : List Operator)
    (scalar : Scalar compiler place parameters functions expr) :
    Scalar compiler place parameters functions (expr.flatten keptApart) := by
  rw [flatten_eq]
  refine rewrite_scalar id (fun {place parameters functions op operands} scalar => ?_) scalar
  split
  · rename_i chain
    have associative : op.isAssociative = true := (Bool.and_eq_true_iff.mp chain).1
    have plain : op ≠ .power ∧ op.isComparison = false := by
      revert associative
      cases op <;> decide
    obtain ⟨other, uncompared⟩ := plain
    obtain ⟨several, -, inside, build⟩ := operands_scalar scalar
    rw [if_neg other] at inside build
    refine build (several.trans (length_le_flatMap fun operand member =>
      (spliced_scalar other (inside operand member)).1))
      (fun compared => by rw [uncompared] at compared; cases compared) fun operand member => ?_
    obtain ⟨source, listed, among⟩ := List.mem_flatMap.mp member
    exact (spliced_scalar other (inside source listed)).2 operand among
  · exact scalar

/-- Literals among the operands gave way to others, and a single one is left only as a number. -/
structure Condenses (operands result : List Expr) : Prop where
  shorter : result.length ≤ operands.length
  among : ∀ operand ∈ result, operand ∈ operands ∨ ∃ value, operand = number value
  number : ∀ operand, result = [operand] → ∃ value, operand = number value
  some_ : result ≠ []

variable {calculator : Calculator}

theorem foldInto_sublist (calculator : Calculator) (op : Operator) (held : Decimal)
    (operands : List Expr) :
    (foldInto calculator op held operands).2.Sublist operands := by
  fun_induction foldInto calculator op held operands with
  | case1 => exact List.Sublist.refl _
  | case2 held value rest folded fold ih => exact ih.cons _
  | case3 held value rest fold held' rest' result ih =>
    rw [result] at ih
    exact ih.cons_cons _
  | case4 held expr rest other held' rest' result ih =>
    rw [result] at ih
    exact ih.cons_cons _

theorem condenses_cons {value held : Decimal} {rest left : List Expr} (sub : left.Sublist rest) :
    Condenses (Expr.number value :: rest) (Expr.number held :: left) where
  shorter := Nat.succ_le_succ sub.length_le
  among := by
    intro operand member
    rcases List.mem_cons.mp member with rfl | member
    · exact .inr ⟨held, rfl⟩
    · exact .inl (List.mem_cons_of_mem _ (sub.subset member))
  number := by
    rintro operand ⟨rfl, -⟩
    exact ⟨held, rfl⟩
  some_ := List.cons_ne_nil _ _

theorem condenses_refl (several : 2 ≤ operands.length) : Condenses operands operands where
  shorter := Nat.le_refl _
  among := fun _ member => .inl member
  number := by
    rintro operand rfl
    exact absurd several (by simp)
  some_ := by
    rw [← List.length_pos_iff]
    omega

theorem foldAll_ne_nil (some_ : operands ≠ []) : foldAll calculator op operands ≠ [] := by
  fun_cases foldAll calculator op operands with
  | case1 => exact some_
  | case2 => exact List.cons_ne_nil _ _
  | case3 => exact List.cons_ne_nil _ _

theorem length_foldAll_le (calculator : Calculator) (op : Operator) (operands : List Expr) :
    (foldAll calculator op operands).length ≤ operands.length := by
  fun_induction foldAll calculator op operands with
  | case1 => exact Nat.le_refl _
  | case2 value rest held rest' result =>
    have sub := foldInto_sublist calculator op value rest
    rw [result] at sub
    exact Nat.succ_le_succ sub.length_le
  | case3 expr rest _ ih => exact Nat.succ_le_succ ih

theorem mem_foldAll (calculator : Calculator) (op : Operator) (operands : List Expr) :
    ∀ operand ∈ foldAll calculator op operands,
      operand ∈ operands ∨ ∃ value, operand = number value := by
  fun_induction foldAll calculator op operands with
  | case1 => exact fun _ member => absurd member List.not_mem_nil
  | case2 value rest held rest' result =>
    have sub := foldInto_sublist calculator op value rest
    rw [result] at sub
    exact (condenses_cons sub).among
  | case3 expr rest _ ih =>
    intro operand member
    rcases List.mem_cons.mp member with rfl | member
    · exact .inl List.mem_cons_self
    · exact (ih operand member).imp_left (List.mem_cons_of_mem _)

theorem foldAll_condenses (several : 2 ≤ operands.length) :
    Condenses operands (foldAll calculator op operands) := by
  refine ⟨length_foldAll_le _ _ _, mem_foldAll _ _ _, ?_, foldAll_ne_nil ?_⟩
  · fun_cases foldAll calculator op operands with
    | case1 =>
      intro operand empty
      cases empty
    | case2 value rest held rest' result =>
      rintro operand ⟨rfl, -⟩
      exact ⟨held, rfl⟩
    | case3 expr rest _ =>
      -- What follows an operand that is no literal does not vanish.
      intro operand single
      have empty := (List.cons.inj single).2
      refine absurd empty (foldAll_ne_nil ?_)
      rintro rfl
      exact absurd several (by simp)
  · rw [← List.length_pos_iff]
    omega

theorem mem_foldLeading (calculator : Calculator) (op : Operator) (operands : List Expr) :
    ∀ operand ∈ foldLeading calculator op operands,
      operand ∈ operands ∨ ∃ value, operand = number value := by
  fun_cases foldLeading calculator op operands with
  | case1 value rest held rest' result =>
    have suffix := foldFront_suffix calculator op value rest
    rw [result] at suffix
    exact (condenses_cons suffix.sublist).among
  | case2 => exact fun _ member => .inl member

theorem foldLeading_condenses (several : 2 ≤ operands.length) :
    Condenses operands (foldLeading calculator op operands) := by
  fun_cases foldLeading calculator op operands with
  | case1 value rest held rest' result =>
    have suffix := foldFront_suffix calculator op value rest
    rw [result] at suffix
    exact condenses_cons suffix.sublist
  | case2 => exact condenses_refl several

theorem foldOperands_scalar (keptApart : List Operator)
    (scalar : Scalar compiler place parameters functions (binary op operands)) :
    Scalar compiler place parameters functions
      (foldOperands calculator keptApart op operands) := by
  obtain ⟨several, pair, inside, build⟩ := operands_scalar scalar
  have condenses : Condenses operands (if chains keptApart op then foldAll calculator op operands
      else foldLeading calculator op operands) := by
    split
    · exact foldAll_condenses several
    · exact foldLeading_condenses several
  rw [foldOperands]
  generalize (if chains keptApart op then foldAll calculator op operands
    else foldLeading calculator op operands) = result at condenses
  match result, condenses with
  | [], condenses => exact absurd rfl condenses.some_
  | [operand], condenses =>
    obtain ⟨value, rfl⟩ := condenses.number operand rfl
    exact .number value
  | first :: second :: rest, condenses =>
    refine build (by simp) (fun compared => ?_) fun operand member => ?_
    · have two := pair compared
      have shorter := condenses.shorter
      simp only [List.length_cons] at shorter ⊢
      omega
    · rcases condenses.among operand member with listed | ⟨value, rfl⟩
      · exact inside operand listed
      · exact .number value

theorem foldLiterals_scalar (keptApart : List Operator)
    (scalar : Scalar compiler place parameters functions expr) :
    Scalar compiler place parameters functions (expr.foldLiterals calculator keptApart) := by
  rw [foldLiterals_eq]
  refine rewrite_scalar (fun {place parameters functions op operand} scalar => ?_)
    (foldOperands_scalar keptApart) scalar
  unfold foldOperand
  split
  · exact .number _
  · exact scalar

end Formulary.Expr
