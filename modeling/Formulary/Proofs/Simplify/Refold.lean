import Formulary.Proofs.Simplify.Flatten

namespace Formulary

/-! Folding what is folded. A literal that does not fold into the first one of its chain is set
    aside. Later literals still change the first one, and what was set aside may fold into what it
    has become; so a second pass can find something to do, though only in sums and products. Each
    pass that does makes the tree smaller, so the passes come to an end. -/

namespace Expr

variable {calculator : Calculator} {keptApart : List Operator} {op : Operator}
variable {operands rest : List Expr} {held : Decimal} {expr : Expr}

theorem sizeAll_le_of_sublist {few many : List Expr} (sub : few.Sublist many) :
    sizeAll few ≤ sizeAll many := by
  induction sub with
  | slnil => exact Nat.le_refl _
  | cons expr _ ih => exact Nat.le_add_left_of_le ih
  | cons_cons expr _ ih => exact Nat.add_le_add_left ih _

/-! Literals that fold into another one from any place. -/

/-- No literal of the row folds. -/
def Rejects (calculator : Calculator) (op : Operator) (held : Decimal) (rest : List Expr) : Prop :=
  ∀ value, number value ∈ rest → calculator.foldPair? op held value = none

theorem rejects_nil : Rejects calculator op held [] := by simp [Rejects]

theorem rejects_number {value : Decimal} :
    Rejects calculator op held (number value :: rest) ↔
      calculator.foldPair? op held value = none ∧ Rejects calculator op held rest := by
  simp [Rejects]

theorem rejects_other (other : ∀ value, expr ≠ number value) :
    Rejects calculator op held (expr :: rest) ↔ Rejects calculator op held rest := by
  simp [Rejects, (other _).symm]

theorem foldInto_of_rejects (rejects : Rejects calculator op held rest) :
    foldInto calculator op held rest = (held, rest) := by
  fun_induction foldInto calculator op held rest with
  | case1 => rfl
  | case2 held value rest folded fold ih =>
    rw [(rejects_number.mp rejects).1] at fold
    cases fold
  | case3 held value rest fold held' rest' result ih =>
    have same := ih (rejects_number.mp rejects).2
    rw [result] at same
    cases same
    rfl
  | case4 held expr rest other held' rest' result ih =>
    have same := ih ((rejects_other other).mp rejects)
    rw [result] at same
    cases same
    rfl

theorem foldInto_shrinks (calculator : Calculator) (op : Operator) (held : Decimal)
    (rest : List Expr) :
    Rejects calculator op held rest ∨
      sizeAll (foldInto calculator op held rest).2 < sizeAll rest := by
  fun_induction foldInto calculator op held rest with
  | case1 => exact .inl rejects_nil
  | case2 held value rest folded fold ih =>
    have fewer := sizeAll_le_of_sublist (foldInto_sublist calculator op folded rest)
    refine .inr ?_
    rw [sizeAll, size]
    omega
  | case3 held value rest fold held' rest' result ih =>
    rw [result] at ih
    rw [rejects_number]
    exact ih.imp (fun rejects => ⟨fold, rejects⟩) fun fewer => Nat.add_lt_add_left fewer _
  | case4 held expr rest other held' rest' result ih =>
    rw [result] at ih
    rw [rejects_other other]
    exact ih.imp_right fun fewer => Nat.add_lt_add_left fewer _

theorem rejects_of_countP {rest : List Expr} (none_ : rest.countP isNumber = 0) :
    Rejects calculator op held rest :=
  fun _ member => absurd rfl (List.countP_eq_zero.mp none_ _ member)

/-- A single literal folds or is set aside for good. -/
theorem rejects_foldInto_of_few (few : rest.countP isNumber ≤ 1) :
    Rejects calculator op (foldInto calculator op held rest).1
      (foldInto calculator op held rest).2 := by
  fun_induction foldInto calculator op held rest with
  | case1 => exact rejects_nil
  | case2 held value rest folded fold ih =>
    rw [List.countP_cons_of_pos rfl] at few
    exact ih (by omega)
  | case3 held value rest fold held' rest' result ih =>
    have none_ : rest.countP isNumber = 0 := by
      rw [List.countP_cons_of_pos rfl] at few
      omega
    rw [foldInto_of_rejects (rejects_of_countP none_)] at result
    cases result
    exact rejects_number.mpr ⟨fold, rejects_of_countP none_⟩
  | case4 held expr rest other held' rest' result ih =>
    rw [List.countP_cons] at few
    have aside := ih (by omega)
    rw [result] at aside
    exact (rejects_other other).mpr aside

theorem rejects_foldInto_of_total (total : ∀ a b, (calculator.foldPair? op a b).isSome) :
    Rejects calculator op (foldInto calculator op held rest).1
      (foldInto calculator op held rest).2 := by
  fun_induction foldInto calculator op held rest with
  | case1 => exact rejects_nil
  | case2 held value rest folded fold ih => exact ih
  | case3 held value rest fold held' rest' result ih =>
    have folds := total held value
    rw [fold] at folds
    cases folds
  | case4 held expr rest other held' rest' result ih =>
    rw [result] at ih
    exact (rejects_other other).mpr ih

/-- Whether no literal of a row folds into the first one. -/
def isSpent (calculator : Calculator) (op : Operator) : List Expr → Bool
  | [] => true
  | number held :: rest =>
    rest.all fun operand => (operand.number?.bind (calculator.foldPair? op held)).isNone
  | _ :: rest => isSpent calculator op rest

theorem isSpent_number :
    isSpent calculator op (number held :: rest) = true ↔ Rejects calculator op held rest := by
  rw [isSpent, List.all_eq_true]
  constructor
  · intro spent value member
    exact Option.isNone_iff_eq_none.mp (spent _ member)
  · intro rejects operand member
    cases operand with
    | number value => exact Option.isNone_iff_eq_none.mpr (rejects value member)
    | _ => rfl

theorem isSpent_other (other : ∀ value, expr ≠ number value) :
    isSpent calculator op (expr :: rest) = isSpent calculator op rest := by
  cases expr with
  | number value => exact absurd rfl (other value)
  | _ => rfl

theorem foldAll_of_isSpent (spent : isSpent calculator op operands) :
    foldAll calculator op operands = operands := by
  fun_induction foldAll calculator op operands with
  | case1 => rfl
  | case2 value rest held rest' result =>
    rw [foldInto_of_rejects (isSpent_number.mp spent)] at result
    cases result
    rfl
  | case3 expr rest other ih =>
    rw [isSpent_other other] at spent
    rw [ih spent]

theorem foldAll_shrinks (calculator : Calculator) (op : Operator) (operands : List Expr) :
    isSpent calculator op operands ∨
      sizeAll (foldAll calculator op operands) < sizeAll operands := by
  fun_induction foldAll calculator op operands with
  | case1 => exact .inl rfl
  | case2 value rest held rest' result =>
    have shrinks := foldInto_shrinks calculator op value rest
    rw [result] at shrinks
    rw [isSpent_number]
    exact shrinks.imp_right fun fewer => Nat.add_lt_add_left fewer _
  | case3 expr rest other ih =>
    rw [isSpent_other other]
    exact ih.imp_right fun fewer => Nat.add_lt_add_left fewer _

theorem isSpent_foldAll (aside : ∀ held rest, number held :: rest <:+ operands →
    Rejects calculator op (foldInto calculator op held rest).1
      (foldInto calculator op held rest).2) :
    isSpent calculator op (foldAll calculator op operands) := by
  fun_induction foldAll calculator op operands with
  | case1 => rfl
  | case2 value rest held rest' result =>
    have rejects := aside value rest (List.suffix_refl _)
    rw [result] at rejects
    exact isSpent_number.mpr rejects
  | case3 expr rest other ih =>
    rw [isSpent_other other]
    exact ih fun held later suffix => aside held later (suffix.trans (List.suffix_cons _ _))

/-- One literal must be folded after another one was set aside, and that takes three. -/
theorem isSpent_foldAll_of_few (few : operands.countP isNumber ≤ 2) :
    isSpent calculator op (foldAll calculator op operands) := by
  refine isSpent_foldAll fun held rest suffix => rejects_foldInto_of_few ?_
  have fewer := suffix.sublist.countP_le (p := isNumber)
  rw [List.countP_cons_of_pos rfl] at fewer
  omega

theorem isSpent_foldAll_of_total (total : ∀ a b, (calculator.foldPair? op a b).isSome) :
    isSpent calculator op (foldAll calculator op operands) :=
  isSpent_foldAll fun _ _ _ => rejects_foldInto_of_total total

/-! Literals that fold from the left. -/

theorem foldFront_again (calculator : Calculator) (op : Operator) (held : Decimal)
    (rest : List Expr) :
    foldFront calculator op (foldFront calculator op held rest).1
      (foldFront calculator op held rest).2 = foldFront calculator op held rest := by
  fun_induction foldFront calculator op held rest with
  | case1 held value rest folded fold ih => exact ih
  | case2 held value rest fold => simp only [foldFront, fold]
  | case3 held rest other =>
    rw [foldFront]
    exact other

theorem foldLeading_again (calculator : Calculator) (op : Operator) (operands : List Expr) :
    foldLeading calculator op (foldLeading calculator op operands) =
      foldLeading calculator op operands := by
  fun_cases foldLeading calculator op operands with
  | case1 value rest held rest' result =>
    have again := foldFront_again calculator op value rest
    rw [result] at again
    simp only [foldLeading, again]
  | case2 operands other =>
    rw [foldLeading]
    exact other

theorem foldFront_shrinks (calculator : Calculator) (op : Operator) (held : Decimal)
    (rest : List Expr) :
    foldFront calculator op held rest = (held, rest) ∨
      sizeAll (foldFront calculator op held rest).2 < sizeAll rest := by
  fun_induction foldFront calculator op held rest with
  | case1 held value rest folded fold ih =>
    have fewer := sizeAll_le_of_sublist (foldFront_suffix calculator op folded rest).sublist
    refine .inr ?_
    rw [sizeAll, size]
    omega
  | case2 => exact .inl rfl
  | case3 => exact .inl rfl

theorem foldLeading_shrinks (calculator : Calculator) (op : Operator) (operands : List Expr) :
    foldLeading calculator op operands = operands ∨
      sizeAll (foldLeading calculator op operands) < sizeAll operands := by
  fun_cases foldLeading calculator op operands with
  | case1 value rest held rest' result =>
    have shrinks := foldFront_shrinks calculator op value rest
    rw [result] at shrinks
    rcases shrinks with same | fewer
    · cases same
      exact .inl rfl
    · exact .inr (Nat.add_lt_add_left fewer _)
  | case2 => exact .inl rfl

/-! Trees with folded operands. -/

/-- The operands of an operator with their literals folded. -/
def foldRow (calculator : Calculator) (keptApart : List Operator) (op : Operator)
    (operands : List Expr) : List Expr :=
  if chains keptApart op then foldAll calculator op operands
  else foldLeading calculator op operands

theorem foldOperands_eq (calculator : Calculator) (keptApart : List Operator) (op : Operator)
    (operands : List Expr) :
    foldOperands calculator keptApart op operands =
      nary op (foldRow calculator keptApart op operands) := rfl

theorem foldRow_of_numeric (numeric : op ∈ [Operator.add, .mul]) (apart : op ∉ keptApart) :
    foldRow calculator keptApart op operands = foldAll calculator op operands := by
  have associative : op ∈ [Operator.add, .mul, .and, .or] :=
    List.mem_append_left [Operator.and, .or] numeric
  exact if_pos (chains_iff.mpr ⟨associative, apart⟩)

theorem foldRow_shrinks (calculator : Calculator) (keptApart : List Operator) (op : Operator)
    (operands : List Expr) :
    foldRow calculator keptApart op operands = operands ∨
      sizeAll (foldRow calculator keptApart op operands) < sizeAll operands := by
  unfold foldRow
  split
  · exact (foldAll_shrinks calculator op operands).imp_left foldAll_of_isSpent
  · exact foldLeading_shrinks calculator op operands

theorem mem_foldRow (calculator : Calculator) (keptApart : List Operator) (op : Operator)
    (operands : List Expr) :
    ∀ operand ∈ foldRow calculator keptApart op operands,
      operand ∈ operands ∨ ∃ value, operand = number value := by
  unfold foldRow
  split
  · exact mem_foldAll calculator op operands
  · exact mem_foldLeading calculator op operands

theorem nary_cases (op : Operator) (operands : List Expr) :
    operands.length ≠ 1 ∧ nary op operands = binary op operands ∨
      ∃ operand, operands = [operand] ∧ nary op operands = operand := by
  match operands with
  | [] => exact .inl ⟨by simp, rfl⟩
  | [operand] => exact .inr ⟨operand, rfl, rfl⟩
  | _ :: _ :: _ => exact .inl ⟨by simp, rfl⟩

theorem foldOperands_shrinks (calculator : Calculator) (keptApart : List Operator) (op : Operator)
    (operands : List Expr) :
    operands.length ≠ 1 ∧ foldRow calculator keptApart op operands = operands ∨
      (foldOperands calculator keptApart op operands).size < (binary op operands).size := by
  rw [foldOperands_eq, size_eq (binary op operands), children]
  have shrinks := foldRow_shrinks calculator keptApart op operands
  rcases nary_cases op (foldRow calculator keptApart op operands) with
    ⟨several, kept⟩ | ⟨operand, single, kept⟩
  · rcases shrinks with same | fewer
    · rw [same] at several
      exact .inl ⟨several, same⟩
    · rw [kept, size_eq, children]
      exact .inr (by omega)
  · have size : operand.size = sizeAll (foldRow calculator keptApart op operands) := by
      simp [single, sizeAll]
    have fewer : sizeAll (foldRow calculator keptApart op operands) ≤ sizeAll operands :=
      shrinks.elim (fun same => (congrArg sizeAll same).le) Nat.le_of_lt
    rw [kept, size]
    exact .inr (by omega)

theorem foldOperands_eq_binary :
    foldOperands calculator keptApart op operands = binary op operands ↔
      operands.length ≠ 1 ∧ foldRow calculator keptApart op operands = operands := by
  constructor
  · intro same
    refine (foldOperands_shrinks calculator keptApart op operands).resolve_right ?_
    rw [same]
    exact Nat.lt_irrefl _
  · rintro ⟨several, same⟩
    rw [foldOperands_eq, same]
    rcases nary_cases op operands with ⟨-, kept⟩ | ⟨operand, rfl, -⟩
    · exact kept
    · exact absurd rfl several

theorem foldOperand_cases (calculator : Calculator) (op : UnaryOperator) (operand : Expr) :
    foldOperand calculator op operand = unary op operand ∨
      ∃ value, foldOperand calculator op operand = number value := by
  unfold foldOperand
  split
  · exact .inr ⟨_, rfl⟩
  · exact .inl rfl

/-- Fold an operation, and not its operands. -/
abbrev foldRoot (calculator : Calculator) (keptApart : List Operator) : Expr → Expr :=
  rewriteRoot (foldOperand calculator) (foldOperands calculator keptApart)

theorem foldRoot_shrinks (calculator : Calculator) (keptApart : List Operator) (expr : Expr) :
    expr.foldRoot calculator keptApart = expr ∨
      (expr.foldRoot calculator keptApart).size < expr.size := by
  cases expr with
  | unary op operand =>
    rcases foldOperand_cases calculator op operand with same | ⟨value, literal⟩
    · exact .inl same
    · have positive := size_eq operand
      refine .inr ?_
      rw [foldRoot, rewriteRoot, literal, size, size]
      omega
  | binary op operands =>
    exact (foldOperands_shrinks calculator keptApart op operands).imp_left
      foldOperands_eq_binary.mpr
  | _ => exact .inl rfl

theorem foldLiterals_shrinks (calculator : Calculator) (keptApart : List Operator) (expr : Expr) :
    (∀ part ∈ expr.subtrees, part.foldRoot calculator keptApart = part) ∨
      (expr.foldLiterals calculator keptApart).size < expr.size := by
  rw [foldLiterals_eq]
  exact rewrite_shrinks (foldRoot_shrinks calculator keptApart) expr

theorem foldLiterals_eq_self_iff :
    expr.foldLiterals calculator keptApart = expr ↔
      ∀ part ∈ expr.subtrees, part.foldRoot calculator keptApart = part := by
  constructor
  · intro same
    refine (foldLiterals_shrinks calculator keptApart expr).resolve_right ?_
    rw [same]
    exact Nat.lt_irrefl _
  · intro left
    rw [foldLiterals_eq]
    exact rewrite_eq_self expr left

/-- Folded, except that literals which were set aside in a sum or in a product may fold now. -/
def IsFolded (calculator : Calculator) (keptApart : List Operator) : Expr → Prop
  | binary op operands => operands.length ≠ 1 ∧
      (op ∈ [Operator.add, .mul] ∧ op ∉ keptApart ∨
        foldRow calculator keptApart op operands = operands)
  | expr => expr.foldRoot calculator keptApart = expr

/-- In a sum or a product that may be reordered no literal folds into the first one. -/
def IsSettled (calculator : Calculator) (keptApart : List Operator) : Expr → Prop
  | binary op operands =>
    op ∈ [Operator.add, .mul] → op ∉ keptApart → isSpent calculator op operands
  | _ => True

theorem foldRow_again (calculator : Calculator) (keptApart : List Operator) (op : Operator)
    (operands : List Expr) :
    op ∈ [Operator.add, .mul] ∧ op ∉ keptApart ∨
      foldRow calculator keptApart op (foldRow calculator keptApart op operands) =
        foldRow calculator keptApart op operands := by
  by_cases chained : chains keptApart op = true
  · obtain ⟨associative, apart⟩ := chains_iff.mp chained
    by_cases numeric : op ∈ [Operator.add, .mul]
    · exact .inl ⟨numeric, apart⟩
    · -- What is left are conjunctions and disjunctions, which fold any two literals.
      have total : ∀ a b, (calculator.foldPair? op a b).isSome := by
        intro a b
        simp only [List.mem_cons, List.not_mem_nil, or_false, not_or] at associative numeric
        rcases associative with rfl | rfl | rfl | rfl
        · exact absurd rfl numeric.1
        · exact absurd rfl numeric.2
        · rfl
        · rfl
      refine .inr ?_
      simp only [foldRow, chained, if_true]
      exact foldAll_of_isSpent (isSpent_foldAll_of_total total)
  · refine .inr ?_
    simp only [foldRow, chained]
    exact foldLeading_again calculator op operands

theorem forall_subtrees_foldOperand {holds : Expr → Prop} {op : UnaryOperator} {operand : Expr}
    (literal : ∀ value, holds (number value))
    (self : foldOperand calculator op operand = unary op operand → holds (unary op operand))
    (below : ∀ part ∈ operand.subtrees, holds part) :
    ∀ part ∈ (foldOperand calculator op operand).subtrees, holds part := by
  rcases foldOperand_cases calculator op operand with same | ⟨value, folded⟩
  · rw [same]
    exact forall_subtrees.mpr ⟨self same, by simpa [children] using below⟩
  · rw [folded]
    simpa [subtrees] using literal value

theorem forall_subtrees_foldOperands {holds : Expr → Prop} (literal : ∀ value, holds (number value))
    (self : (foldRow calculator keptApart op operands).length ≠ 1 →
      holds (binary op (foldRow calculator keptApart op operands)))
    (below : ∀ operand ∈ operands, ∀ part ∈ operand.subtrees, holds part) :
    ∀ part ∈ (foldOperands calculator keptApart op operands).subtrees, holds part := by
  have inside : ∀ operand ∈ foldRow calculator keptApart op operands,
      ∀ part ∈ operand.subtrees, holds part := by
    intro operand member
    rcases mem_foldRow calculator keptApart op operands operand member with listed | ⟨value, rfl⟩
    · exact below operand listed
    · simpa [subtrees] using literal value
  rw [foldOperands_eq]
  rcases nary_cases op (foldRow calculator keptApart op operands) with
    ⟨several, kept⟩ | ⟨operand, single, kept⟩
  · rw [kept]
    exact forall_subtrees.mpr ⟨self several, inside⟩
  · rw [kept]
    exact inside operand (by simp [single])

theorem foldLiterals_isFolded (calculator : Calculator) (keptApart : List Operator) (expr : Expr) :
    ∀ part ∈ (expr.foldLiterals calculator keptApart).subtrees,
      part.IsFolded calculator keptApart := by
  rw [foldLiterals_eq]
  refine forall_subtrees_rewrite (fun expr (_ : True) below => ?_) expr fun _ _ => trivial
  cases expr with
  | unary op operand =>
    exact forall_subtrees_foldOperand (fun _ => rfl) id (below _ List.mem_cons_self)
  | binary op operands =>
    exact forall_subtrees_foldOperands (fun _ => rfl)
      (fun several => ⟨several, foldRow_again calculator keptApart op _⟩) below
  | _ => exact forall_subtrees.mpr ⟨rfl, below⟩

/-- After a pass, sums and products are all that another pass may change. -/
theorem foldRoot_eq_self_iff (folded : expr.IsFolded calculator keptApart) :
    expr.foldRoot calculator keptApart = expr ↔ expr.IsSettled calculator keptApart := by
  cases expr with
  | binary op operands =>
    obtain ⟨several, again⟩ := folded
    rw [foldRoot, rewriteRoot, foldOperands_eq_binary]
    constructor
    · rintro ⟨-, same⟩ numeric apart
      rw [foldRow_of_numeric numeric apart] at same
      refine (foldAll_shrinks calculator op operands).resolve_right ?_
      rw [same]
      exact Nat.lt_irrefl _
    · intro settled
      refine ⟨several, ?_⟩
      rcases again with ⟨numeric, apart⟩ | same
      · rw [foldRow_of_numeric numeric apart]
        exact foldAll_of_isSpent (settled numeric apart)
      · exact same
  | _ => exact iff_of_true folded trivial

theorem foldLiterals_again_iff (calculator : Calculator) (keptApart : List Operator)
    (expr : Expr) :
    (expr.foldLiterals calculator keptApart).foldLiterals calculator keptApart =
        expr.foldLiterals calculator keptApart ↔
      ∀ part ∈ (expr.foldLiterals calculator keptApart).subtrees,
        part.IsSettled calculator keptApart := by
  rw [foldLiterals_eq_self_iff]
  exact forall₂_congr fun part member =>
    foldRoot_eq_self_iff (foldLiterals_isFolded calculator keptApart expr part member)

/-- At most two operands of a sum or a product that may be reordered are literals, or become
    literals when they are folded. -/
def HasFewLiterals (calculator : Calculator) (keptApart : List Operator) : Expr → Prop
  | binary op operands => op ∈ [Operator.add, .mul] → op ∉ keptApart →
      (operands.countP fun operand => (operand.foldLiterals calculator keptApart).isNumber) ≤ 2
  | _ => True

theorem foldLiterals_isSettled (few : ∀ part ∈ expr.subtrees,
    part.HasFewLiterals calculator keptApart) :
    ∀ part ∈ (expr.foldLiterals calculator keptApart).subtrees,
      part.IsSettled calculator keptApart := by
  rw [foldLiterals_eq]
  refine forall_subtrees_rewrite (fun expr few below => ?_) expr few
  cases expr with
  | unary op operand =>
    exact forall_subtrees_foldOperand (fun _ => trivial) (fun _ => trivial)
      (below _ List.mem_cons_self)
  | binary op operands =>
    refine forall_subtrees_foldOperands (fun _ => trivial) (fun _ numeric apart => ?_) below
    rw [foldRow_of_numeric numeric apart]
    refine isSpent_foldAll_of_few ?_
    rw [List.countP_map, ← funext (foldLiterals_eq calculator keptApart)]
    exact few numeric apart
  | _ => exact forall_subtrees.mpr ⟨trivial, below⟩

end Expr

namespace Pass

theorem runAll_replicate_fold (calculator : Calculator) (keptApart : List Operator) (runs : Nat)
    (expr : Expr) :
    runAll (List.replicate runs (fold calculator keptApart)) expr =
      ((Expr.foldLiterals calculator keptApart)^[runs] expr, []) := by
  induction runs generalizing expr with
  | zero => rfl
  | succ runs ih =>
    simp only [List.replicate_succ, runAll, run, ih, Function.iterate_succ_apply,
      List.append_nil]

/-- A second pass leaves a folded tree alone exactly where no literal of a sum or a product in it
    folds into the first one there. That is so if never more than two operands are or become
    literals. As many passes as the tree has nodes leave nothing to fold. -/
theorem fold_again (calculator : Calculator) (keptApart : List Operator) (expr : Expr) :
    ∃ once, (Pass.fold calculator keptApart).run expr = (once, []) ∧
      ((Pass.fold calculator keptApart).run once = (once, []) ↔
        ∀ part ∈ once.subtrees, part.IsSettled calculator keptApart) ∧
      ((∀ part ∈ expr.subtrees, part.HasFewLiterals calculator keptApart) →
        (Pass.fold calculator keptApart).run once = (once, [])) ∧
      ∀ runs ≥ expr.size, ∃ last,
        runAll (List.replicate runs (Pass.fold calculator keptApart)) expr = (last, []) ∧
        (Pass.fold calculator keptApart).run last = (last, []) := by
  have alone : ∀ tree : Expr, (Pass.fold calculator keptApart).run tree = (tree, []) ↔
      tree.foldLiterals calculator keptApart = tree := by
    intro tree
    simp [run]
  have again := Expr.foldLiterals_again_iff calculator keptApart expr
  refine ⟨expr.foldLiterals calculator keptApart, rfl, (alone _).trans again, fun few => ?_,
    fun runs enough => ⟨_, runAll_replicate_fold calculator keptApart runs expr, ?_⟩⟩
  · exact (alone _).mpr (again.mpr (Expr.foldLiterals_isSettled few))
  · have shrinks : ∀ tree : Expr, tree.foldLiterals calculator keptApart = tree ∨
        (tree.foldLiterals calculator keptApart).size < tree.size := fun tree =>
      (Expr.foldLiterals_shrinks calculator keptApart tree).imp_left
        Expr.foldLiterals_eq_self_iff.mpr
    exact (alone _).mpr (iterate_rests shrinks enough)

end Pass

def half : Expr := .number ⟨5, 1⟩

def quarter : Expr := .number ⟨25, 2⟩

/-- The halves around a variable are kept apart, since their sum would be an integer, and they are
    kept apart again. -/
theorem halves_fold_again :
    (∀ part ∈ (Expr.binary .add [half, .var "x", half]).subtrees,
      part.HasFewLiterals .standard []) ∧
    ∃ once, (Pass.fold .standard []).run (.binary .add [half, .var "x", half]) = (once, []) ∧
      (Pass.fold .standard []).run once = (once, []) := by
  have few : ∀ part ∈ (Expr.binary .add [half, .var "x", half]).subtrees,
      part.HasFewLiterals .standard [] := by
    refine Expr.forall_subtrees.mpr ⟨fun _ _ => by decide, ?_⟩
    simp [Expr.children, half, Expr.subtrees, Expr.HasFewLiterals]
  obtain ⟨once, done, -, again, -⟩ :=
    Pass.fold_again .standard [] (.binary .add [half, .var "x", half])
  exact ⟨few, once, done, again few⟩

/-- A half is set aside, since it makes one with the half before it, and the quarter folds. A second
    pass folds the half, too. -/
theorem halves_and_quarter_fold :
    (Pass.fold .standard []).run (.binary .add [half, half, quarter]) =
      (.binary .add [.number ⟨75, 2⟩, half], []) ∧
    (Pass.fold .standard []).run (.binary .add [.number ⟨75, 2⟩, half]) =
      (.number ⟨125, 2⟩, []) ∧
    Expr.number ⟨125, 2⟩ ≠ .binary .add [.number ⟨75, 2⟩, half] :=
  ⟨rfl, rfl, nofun⟩

end Formulary
