import Formulary.Proofs.Simplify.Refold

namespace Formulary

/-! What becomes of the operands when literals are folded. Operands that are no literals stay as
    they are and in their order. A literal is folded into an earlier one or keeps its place, so
    that what the literals of a chain come to is the same before and after. -/

theorem Decimal.isZero_ofBool (truth : Bool) : (ofBool truth).isZero = !truth := by
  cases truth <;> rfl

namespace Expr

def literals (operands : List Expr) : List Decimal := operands.filterMap number?

def others (operands : List Expr) : List Expr := operands.filter fun operand => !operand.isNumber

@[simp] theorem literals_nil : literals [] = [] := rfl

@[simp] theorem others_nil : others [] = [] := rfl

@[simp] theorem literals_append (left right : List Expr) :
    literals (left ++ right) = literals left ++ literals right := List.filterMap_append

@[simp] theorem literals_number (value : Decimal) (rest : List Expr) :
    literals (number value :: rest) = value :: literals rest := rfl

@[simp] theorem others_append (left right : List Expr) :
    others (left ++ right) = others left ++ others right := List.filter_append ..

@[simp] theorem others_number (value : Decimal) (rest : List Expr) :
    others (number value :: rest) = others rest := rfl

theorem number?_eq_none {operand : Expr} (other : ∀ value, operand ≠ number value) :
    operand.number? = none := by
  cases operand with
  | number value => exact absurd rfl (other value)
  | _ => rfl

/-- A row whose literals are being folded: what is built of it, and the place of its first
    literal. -/
structure Folding where
  built : List Expr
  place : Option Nat

namespace Folding

def start : Folding := ⟨[], none⟩

/-- A row with its first literal at the remembered place. -/
abbrev holding (before : List Expr) (held : Decimal) (after : List Expr) : Folding :=
  ⟨before ++ number held :: after, some before.length⟩

def push (row : Folding) (operand : Expr) : Folding := { row with built := row.built ++ [operand] }

/-- Take one operand more: the first literal is remembered, and a later one changes the literal at
    the remembered place, if it folds into that. -/
def take (calculator : Calculator) (op : Operator) (row : Folding) (operand : Expr) : Folding :=
  match operand.number?, row.place with
  | none, _ => row.push operand
  | some _, none => ⟨row.built ++ [operand], some row.built.length⟩
  | some value, some place =>
    match (row.built[place]?.bind number?).bind (calculator.foldPair? op · value) with
    | some folded => { row with built := row.built.set place (number folded) }
    | none => row.push operand

def run (calculator : Calculator) (op : Operator) (operands : List Expr) : Folding :=
  operands.foldl (take calculator op) start

variable {calculator : Calculator} {op : Operator} {row next : Folding} {operand : Expr}
variable {before after : List Expr} {held value folded : Decimal}

theorem take_other (other : operand.number? = none) :
    row.take calculator op operand = row.push operand := by
  rw [take, other]

theorem take_folded (fold : calculator.foldPair? op held value = some folded) :
    take calculator op (holding before held after) (number value) =
      holding before folded after := by
  simp [take, number?, fold]

theorem take_aside (fold : calculator.foldPair? op held value = none) :
    take calculator op (holding before held after) (number value) =
      push (holding before held after) (number value) := by
  simp [take, number?, fold]

theorem push_held (before after : List Expr) (held : Decimal) (operand : Expr) :
    push (holding before held after) operand =
      holding before held (after ++ [operand]) := by
  simp [push]

/-! Folding from one place to the next is the same as taking one operand after the other. -/

theorem foldl_take_held (calculator : Calculator) (op : Operator) (held : Decimal)
    (before after rest : List Expr) :
    rest.foldl (take calculator op) (holding before held after) =
      holding before (foldInto calculator op held rest).1
        (after ++ (foldInto calculator op held rest).2) := by
  fun_induction foldInto calculator op held rest generalizing after with
  | case1 => simp
  | case2 held value rest folded fold ih => rw [List.foldl_cons, take_folded fold, ih]
  | case3 held value rest fold held' rest' result ih =>
    rw [List.foldl_cons, take_aside fold, push_held, ih, result]
    simp
  | case4 held expr rest other held' rest' result ih =>
    rw [List.foldl_cons, take_other (number?_eq_none other), push_held, ih, result]
    simp

theorem built_foldl_take (calculator : Calculator) (op : Operator) (before operands : List Expr) :
    (operands.foldl (take calculator op) ⟨before, none⟩).built =
      before ++ foldAll calculator op operands := by
  fun_induction foldAll calculator op operands generalizing before with
  | case1 => simp
  | case2 value rest held rest' result =>
    have first : take calculator op ⟨before, none⟩ (number value) =
      holding before value [] := rfl
    rw [List.foldl_cons, first, foldl_take_held, result]
    simp
  | case3 expr rest other ih =>
    rw [List.foldl_cons, take_other (number?_eq_none other), push, ih]
    simp

theorem built_run (calculator : Calculator) (op : Operator) (operands : List Expr) :
    (run calculator op operands).built = foldAll calculator op operands :=
  built_foldl_take calculator op [] operands

/-! What taking an operand does, and what it therefore keeps. -/

/-- If a place is remembered, there is a literal. -/
inductive Marked : Folding → Prop
  | none (built : List Expr) : Marked ⟨built, none⟩
  | literal (before : List Expr) (held : Decimal) (after : List Expr) :
      Marked (holding before held after)

/-- All that taking an operand can do. -/
inductive Takes (calculator : Calculator) (op : Operator) : Folding → Expr → Folding → Prop
  | other {row : Folding} {operand : Expr} (other : operand.number? = none) :
      Takes calculator op row operand (row.push operand)
  | first (built : List Expr) (value : Decimal) :
      Takes calculator op ⟨built, none⟩ (number value)
        ⟨built ++ [number value], some built.length⟩
  | folded (before after : List Expr) {held value folded : Decimal}
      (fold : calculator.foldPair? op held value = some folded) :
      Takes calculator op (holding before held after) (number value)
        (holding before folded after)
  | aside (before after : List Expr) {held value : Decimal}
      (fold : calculator.foldPair? op held value = none) :
      Takes calculator op (holding before held after) (number value)
        (push (holding before held after) (number value))

theorem Marked.takes (marked : row.Marked) (operand : Expr) :
    Takes calculator op row operand (row.take calculator op operand) := by
  cases literal : operand.number? with
  | none =>
    rw [take_other literal]
    exact .other literal
  | some value =>
    obtain rfl : operand = number value := by
      cases operand with
      | number other => cases literal; rfl
      | _ => cases literal
    cases marked with
    | none built => exact .first built value
    | literal before held after =>
      cases fold : calculator.foldPair? op held value with
      | some folded =>
        rw [take_folded fold]
        exact .folded before after fold
      | none =>
        rw [take_aside fold]
        exact .aside before after fold

theorem Takes.marked (marked : row.Marked) (takes : Takes calculator op row operand next) :
    next.Marked := by
  cases takes with
  | other =>
    cases marked with
    | none built => exact .none _
    | literal before held after =>
      rw [push_held]
      exact .literal before held _
  | first built value => exact .literal built value []
  | folded before after => exact .literal before _ after
  | aside before after =>
    rw [push_held]
    exact .literal before _ _

theorem run_concat (calculator : Calculator) (op : Operator) (seen : List Expr) (operand : Expr) :
    run calculator op (seen ++ [operand]) = (run calculator op seen).take calculator op operand :=
  List.foldl_append

theorem marked_run (calculator : Calculator) (op : Operator) (operands : List Expr) :
    (run calculator op operands).Marked := by
  induction operands using List.reverseRecOn with
  | nil => exact .none []
  | append_singleton seen operand ih =>
    have takes : Takes calculator op _ operand _ := ih.takes operand
    rw [run_concat]
    exact takes.marked ih

/-- What holds of an empty row and is kept with every operand holds of every row. -/
theorem run_induction {motive : List Expr → Folding → Prop} (empty : motive [] start)
    (keeps : ∀ {seen : List Expr} {row next : Folding} {operand : Expr},
      Takes calculator op row operand next → motive seen row → motive (seen ++ [operand]) next)
    (operands : List Expr) : motive operands (run calculator op operands) := by
  induction operands using List.reverseRecOn with
  | nil => exact empty
  | append_singleton seen operand ih =>
    rw [run_concat]
    exact keeps ((marked_run calculator op seen).takes operand) ih

theorem Marked.exists_literal (marked : row.Marked) :
    ∀ place, row.place = some place → ∃ value, row.built[place]? = some (number value) := by
  intro place remembered
  cases marked with
  | none => cases remembered
  | literal before held after =>
    cases remembered
    exact ⟨held, by simp⟩

theorem others_run (calculator : Calculator) (op : Operator) (operands : List Expr) :
    others (run calculator op operands).built = others operands := by
  refine run_induction (motive := fun seen row => others row.built = others seen) rfl ?_ operands
  intro seen row next operand takes kept
  cases takes with
  | other => simp [push, kept]
  | first => simpa using kept
  | folded => simpa using kept
  | aside => simpa [push] using kept

/-- The remembered place is that of the first literal. -/
theorem place_run (calculator : Calculator) (op : Operator) (operands : List Expr) :
    (run calculator op operands).place = operands.findIdx? isNumber := by
  -- Up to the first literal the row is what was seen, so that literal stands in both at one place.
  refine (run_induction (motive := fun seen row => row.place = seen.findIdx? isNumber ∧
    (row.place = none → row.built = seen)) ⟨rfl, fun _ => rfl⟩ ?_ operands).1
  intro seen row next operand takes kept
  obtain ⟨found, unchanged⟩ := kept
  rw [List.findIdx?_append]
  cases takes with
  | other other =>
    have skipped : List.findIdx? isNumber [operand] = none := by simp [isNumber, other]
    rw [skipped, Option.map_none, Option.or_none]
    exact ⟨found, fun nowhere => by rw [push, unchanged nowhere]⟩
  | first built value =>
    obtain rfl : built = seen := unchanged rfl
    rw [← found]
    exact ⟨by simp [isNumber, number?], by simp⟩
  | folded before after fold =>
    rw [← found]
    exact ⟨rfl, by simp⟩
  | aside before after fold =>
    rw [← found]
    exact ⟨rfl, by simp [push]⟩

end Folding

/-! What the literals of a row come to. -/

/-- Numbers that are put together one by one, in any order. -/
structure Tally (M : Type) where
  measure : Decimal → M
  join : M → M → M
  total : List Decimal → M
  join_left_comm : ∀ a b c, join a (join b c) = join b (join a c)
  total_cons : ∀ value values, total (value :: values) = join (measure value) (total values)

namespace Tally

/-- What two numbers are folded to counts as the two do. -/
def Respects {M : Type} (tally : Tally M) (calculator : Calculator) (op : Operator) : Prop :=
  ∀ a b folded, calculator.foldPair? op a b = some folded → ∀ rest,
    tally.join (tally.measure folded) rest =
      tally.join (tally.measure a) (tally.join (tally.measure b) rest)

variable {M : Type} (tally : Tally M) {calculator : Calculator} {op : Operator}

theorem total_perm {left right : List Decimal} (same : left.Perm right) :
    tally.total left = tally.total right := by
  induction same with
  | nil => rfl
  | cons value _ ih => rw [tally.total_cons, tally.total_cons, ih]
  | swap a b rest => simp only [tally.total_cons, tally.join_left_comm (tally.measure a)]
  | trans _ _ first second => exact first.trans second

theorem total_middle (before after : List Expr) (value : Decimal) :
    tally.total (literals (before ++ number value :: after)) =
      tally.join (tally.measure value) (tally.total (literals (before ++ after))) := by
  rw [literals_append, literals_append, ← tally.total_cons]
  exact tally.total_perm List.perm_middle

theorem total_concat (operands : List Expr) (value : Decimal) :
    tally.total (literals (operands ++ [number value])) =
      tally.join (tally.measure value) (tally.total (literals operands)) := by
  rw [total_middle, List.append_nil]

variable {tally}

theorem Respects.total_run (respects : tally.Respects calculator op) (operands : List Expr) :
    tally.total (literals (Folding.run calculator op operands).built) =
      tally.total (literals operands) := by
  refine Folding.run_induction (motive := fun seen row =>
    tally.total (literals row.built) = tally.total (literals seen)) rfl ?_ operands
  intro seen row next operand takes kept
  cases takes with
  | other other =>
    have nothing : literals [operand] = [] := by simp [literals, other]
    simpa [Folding.push, nothing] using kept
  | first built value => rw [total_concat, total_concat, kept]
  | folded before after fold =>
    rw [total_middle] at kept
    rw [total_middle, total_concat, ← kept, respects _ _ _ fold, tally.join_left_comm]
  | aside before after fold => rw [Folding.push, total_concat, total_concat, kept]

theorem Respects.total_foldAll (respects : tally.Respects calculator op) (operands : List Expr) :
    tally.total (literals (foldAll calculator op operands)) =
      tally.total (literals operands) := by
  rw [← Folding.built_run]
  exact respects.total_run operands

def sum : Tally ℚ where
  measure := Decimal.toRat
  join := (· + ·)
  total values := (values.map Decimal.toRat).sum
  join_left_comm := add_left_comm
  total_cons _ _ := rfl

def product : Tally ℚ where
  measure := Decimal.toRat
  join := (· * ·)
  total values := (values.map Decimal.toRat).prod
  join_left_comm := mul_left_comm
  total_cons _ _ := rfl

/-- Whether all numbers differ from zero. -/
def all : Tally Bool where
  measure value := !value.isZero
  join := and
  total values := values.all fun value => !value.isZero
  join_left_comm := Bool.and_left_comm
  total_cons _ _ := rfl

/-- Whether a number differs from zero. -/
def any : Tally Bool where
  measure value := !value.isZero
  join := or
  total values := values.any fun value => !value.isZero
  join_left_comm := Bool.or_left_comm
  total_cons _ _ := rfl

theorem sum_respects (calculator : Calculator) : sum.Respects calculator .add := by
  intro a b folded fold rest
  obtain rfl := Decimal.exactEverywhere?_eq fold
  change (a.add b).toRat + rest = a.toRat + (b.toRat + rest)
  rw [Decimal.toRat_add, add_assoc]

theorem product_respects (calculator : Calculator) : product.Respects calculator .mul := by
  intro a b folded fold rest
  obtain rfl := Decimal.exactEverywhere?_eq fold
  change (a.mul b).toRat * rest = a.toRat * (b.toRat * rest)
  rw [Decimal.toRat_mul, mul_assoc]

theorem all_respects (calculator : Calculator) : all.Respects calculator .and := by
  intro a b folded fold rest
  obtain rfl := Option.some.inj fold
  simp only [all, Decimal.isZero_ofBool, Bool.not_not, Bool.and_assoc]

theorem any_respects (calculator : Calculator) : any.Respects calculator .or := by
  intro a b folded fold rest
  obtain rfl := Option.some.inj fold
  simp only [any, Decimal.isZero_ofBool, Bool.not_not, Bool.or_assoc]

end Tally

/-! Literals at the front of a row. -/

variable {calculator : Calculator} {op : Operator} {operands result : List Expr}

/-- The literals at the front of a row, as far as they fold from left to right, gave way to the
    literal that they fold to, and what follows them is as it was. -/
inductive FrontFolded (calculator : Calculator) (op : Operator) : List Expr → List Expr → Prop
  | nothing {operands : List Expr} (other : ∀ value, operands.head? ≠ some (number value)) :
      FrontFolded calculator op operands operands
  | run {first held : Decimal} {more : List Decimal} {rest : List Expr}
      (folds : more.foldlM (calculator.foldPair? op) first = some held)
      (stops : ∀ value, rest.head? = some (number value) →
        calculator.foldPair? op held value = none) :
      FrontFolded calculator op ((first :: more).map number ++ rest) (number held :: rest)

theorem foldFront_frontFolded (calculator : Calculator) (op : Operator) (held : Decimal)
    (rest : List Expr) :
    ∃ more : List Decimal, rest = more.map number ++ (foldFront calculator op held rest).2 ∧
      more.foldlM (calculator.foldPair? op) held = some (foldFront calculator op held rest).1 ∧
      ∀ value, (foldFront calculator op held rest).2.head? = some (number value) →
        calculator.foldPair? op (foldFront calculator op held rest).1 value = none := by
  fun_induction foldFront calculator op held rest with
  | case1 held value rest folded fold ih =>
    obtain ⟨more, front, folds, stops⟩ := ih
    refine ⟨value :: more, ?_, ?_, stops⟩
    · rw [List.map_cons, List.cons_append, ← front]
    · rw [List.foldlM_cons, fold]
      exact folds
  | case2 held value rest fold =>
    refine ⟨[], rfl, rfl, ?_⟩
    rintro value ⟨⟩
    exact fold
  | case3 held rest other =>
    refine ⟨[], rfl, rfl, fun value front => ?_⟩
    cases rest with
    | nil => cases front
    | cons first rest =>
      cases front
      exact absurd rfl (other value rest)

theorem foldLeading_frontFolded (calculator : Calculator) (op : Operator) (operands : List Expr) :
    FrontFolded calculator op operands (foldLeading calculator op operands) := by
  fun_cases foldLeading calculator op operands with
  | case1 value rest held rest' result =>
    obtain ⟨more, front, folds, stops⟩ := foldFront_frontFolded calculator op value rest
    rw [result] at front folds stops
    rw [front]
    exact .run folds stops
  | case2 operands other =>
    refine .nothing fun value front => ?_
    cases operands with
    | nil => cases front
    | cons first rest =>
      cases front
      exact other value rest rfl

theorem foldAll_eq_nil_iff : foldAll calculator op operands = [] ↔ operands = [] := by
  fun_cases foldAll calculator op operands <;> simp

theorem FrontFolded.others_eq (folded : FrontFolded calculator op operands result) :
    others result = others operands := by
  cases folded with
  | nothing => rfl
  | run => simp [others, isNumber, number?]

theorem FrontFolded.eq_nil_iff (folded : FrontFolded calculator op operands result) :
    result = [] ↔ operands = [] := by
  cases folded with
  | nothing => rfl
  | run => simp

/-- Folding loses nothing. Operands that are no literals stay, in their order; a row with operands
    does not become empty. Folding into the first literal is a walk over the row, and however far
    the walk has come, the place that it remembers is that of the first literal and holds one. In
    sums and products the literals keep their exact sum and product, in conjunctions and
    disjunctions their joint truth. Folding at the front changes nothing behind the literals that it
    folds. -/
theorem fold_lossless (calculator : Calculator) (op : Operator) (operands : List Expr) :
    (others (foldAll calculator op operands) = others operands ∧
      others (foldLeading calculator op operands) = others operands) ∧
    ((foldAll calculator op operands = [] ↔ operands = []) ∧
      (foldLeading calculator op operands = [] ↔ operands = [])) ∧
    (foldAll calculator op operands = (Folding.run calculator op operands).built ∧
      ∀ count, (Folding.run calculator op (operands.take count)).place =
          (operands.take count).findIdx? isNumber ∧
        ∀ place, (Folding.run calculator op (operands.take count)).place = some place →
          ∃ value, (Folding.run calculator op (operands.take count)).built[place]? =
            some (number value)) ∧
    ((literals (foldAll calculator .add operands)).map Decimal.toRat).sum =
      ((literals operands).map Decimal.toRat).sum ∧
    ((literals (foldAll calculator .mul operands)).map Decimal.toRat).prod =
      ((literals operands).map Decimal.toRat).prod ∧
    ((literals (foldAll calculator .and operands)).all fun value => !value.isZero) =
      ((literals operands).all fun value => !value.isZero) ∧
    ((literals (foldAll calculator .or operands)).any fun value => !value.isZero) =
      ((literals operands).any fun value => !value.isZero) ∧
    FrontFolded calculator op operands (foldLeading calculator op operands) := by
  have front := foldLeading_frontFolded calculator op operands
  refine ⟨⟨?_, front.others_eq⟩, ⟨foldAll_eq_nil_iff, front.eq_nil_iff⟩,
    ⟨(Folding.built_run calculator op operands).symm, fun count =>
      ⟨Folding.place_run calculator op _, (Folding.marked_run calculator op _).exists_literal⟩⟩,
    (Tally.sum_respects calculator).total_foldAll operands,
    (Tally.product_respects calculator).total_foldAll operands,
    (Tally.all_respects calculator).total_foldAll operands,
    (Tally.any_respects calculator).total_foldAll operands, front⟩
  rw [← Folding.built_run]
  exact Folding.others_run calculator op operands

/-- The second half is set aside, since it makes one with the first, and the quarter is folded into
    the first half at its place behind the variable. -/
theorem halves_fold_lossless :
    (foldAll .standard .add [var "x", half, var "y", half, quarter] =
        [var "x", number ⟨75, 2⟩, var "y", half] ∧
      foldLeading .standard .sub [half, quarter, var "x", half] =
        [number ⟨25, 2⟩, var "x", half]) ∧
    (∃ value, (Folding.run .standard .add [var "x", half, var "y", half, quarter]).built[1]? =
      some (number value)) ∧
    ((literals [var "x", number ⟨75, 2⟩, var "y", half]).map Decimal.toRat).sum =
      ((literals [var "x", half, var "y", half, quarter]).map Decimal.toRat).sum ∧
    FrontFolded .standard .sub [half, quarter, var "x", half] [number ⟨25, 2⟩, var "x", half] := by
  obtain ⟨-, -, ⟨-, marked⟩, sum, -⟩ :=
    fold_lossless .standard .add [var "x", half, var "y", half, quarter]
  obtain ⟨-, -, -, -, -, -, -, front⟩ :=
    fold_lossless .standard .sub [half, quarter, var "x", half]
  exact ⟨⟨rfl, rfl⟩, (marked 5).2 1 rfl, sum, front⟩

end Expr
end Formulary
