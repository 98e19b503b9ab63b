import Mathlib.Data.List.Basic
import Formulary.Evaluation.Machine
import Formulary.Proofs.Evaluation.Fault

namespace Formulary

/-! Operations on values whose types are known: the types of their results, and that they do not
    fail with type errors. -/

namespace Value

/-- A field of an object that its type declares has the declared type, and so it is for the
    objects inside. -/
inductive Conforms (catalog : Catalog) : Value → Prop
  | plain {value : Value} (plain : ∀ name, value.ty ≠ .named name) : Conforms catalog value
  | object {type : String} {fields : List (String × Value)}
      (declared : ∀ {name field declared}, fields.find? (·.1 == name) = some field →
        catalog.memberType? (.named type) name = some declared → field.2.ty = declared)
      (inner : ∀ field ∈ fields, Conforms catalog field.2) :
      Conforms catalog (.object type fields)

theorem Conforms.of_numeric {catalog : Catalog} {value : Value} (numeric : value.ty.isNumeric) :
    value.Conforms catalog := by
  refine .plain fun name same => ?_
  rw [same] at numeric
  cases numeric

/-- The value has the type, with objects as the catalog declares them. -/
def HasType (catalog : Catalog) (value : Value) (type : Ty) : Prop :=
  value.ty = type ∧ value.Conforms catalog

theorem HasType.of_numeric {catalog : Catalog} {value : Value} {type : Ty}
    (same : value.ty = type) (numeric : type.isNumeric) : value.HasType catalog type :=
  ⟨same, .of_numeric (same ▸ numeric)⟩

theorem HasType.bool (catalog : Catalog) (truth : Bool) :
    (Value.bool truth).HasType catalog .bool :=
  ⟨rfl, .plain nofun⟩

end Value

/-- Whatever the outcome is, it is of a type or an error other than a type error. -/
abbrev Computes (type : Ty) (outcome : Except EvalError Value) : Prop :=
  Settles (fun value => value.ty = type) (fun error => error.isTypeError = false) outcome

namespace Computes

theorem negate {value : Value} (numeric : value.ty.isNumeric) : Computes value.ty value.negate := by
  cases value with
  | int32 n | int64 n =>
    simp only [Value.negate, Value.negateSized]
    split <;> rfl
  | float32 _ | float64 _ | decimal _ => rfl
  | bool _ | text _ | object _ _ => cases numeric

theorem sized {w : Width} {op : Operator} (arithmetic : op.isArithmetic) (a b : Sized w) :
    Settles (fun _ => True) (fun error => error.isTypeError = false) (Sized.arith op a b) := by
  have checked : ∀ result, Settles (fun _ => True) (fun error => error.isTypeError = false)
      (Sized.checked op a b result) := by
    intro result
    cases result <;> trivial
  cases op with
  | add | sub | mul => exact checked _
  | div | rem | power =>
    simp only [Sized.arith]
    split
    · rfl
    · exact checked _
  | _ => cases arithmetic

theorem decimals (calculator : Calculator) {op : Operator} (arithmetic : op.isArithmetic)
    (a b : Decimal) :
    Settles (fun _ => True) (fun error => error.isTypeError = false)
      (calculator.arith op a b) := by
  cases op with
  | add | sub | mul => trivial
  | div => exact .lift (TypeErrorFree.divide _ _ _)
  | power => exact .lift (TypeErrorFree.pow calculator _ _)
  | rem =>
    simp only [Calculator.arith]
    split <;> trivial
  | _ => cases arithmetic

theorem arith (calculator : Calculator) {op : Operator} (arithmetic : op.isArithmetic)
    {left right : Value} (same : left.ty = right.ty) (numeric : left.ty.isNumeric) :
    Computes left.ty (Value.arith calculator op left right) := by
  unfold Value.arith
  split
  · exact .map (sized arithmetic _ _) fun _ _ => rfl
  · exact .map (sized arithmetic _ _) fun _ _ => rfl
  · cases op with
    | add | sub | mul | div | rem | power => rfl
    | _ => cases arithmetic
  · cases op with
    | add | sub | mul | div | rem | power => rfl
    | _ => cases arithmetic
  · exact .map (decimals calculator arithmetic _ _) fun _ _ => rfl
  · rename_i int32 int64 float32 float64 decimal
    cases left <;> cases numeric <;> cases right <;> cases same
    · exact absurd rfl (int32 _ _ rfl)
    · exact absurd rfl (int64 _ _ rfl)
    · exact absurd rfl (float32 _ _ rfl)
    · exact absurd rfl (float64 _ _ rfl)
    · exact absurd rfl (decimal _ _ rfl)

theorem ofDecimal (number : Decimal) {type : Ty} (numeric : type.isNumeric) :
    Settles (fun value => value.ty = type) (fun cause => cause.isTypeError = false)
      (Value.ofDecimal number type) := by
  cases type with
  | decimal => rfl
  | int32 | int64 =>
    simp only [Value.ofDecimal]
    split
    · cases Sized.ofInt? number.toInt <;> rfl
    · rfl
  | float32 =>
    simp only [Value.ofDecimal]
    cases Binary.ofDecimal32? number <;> rfl
  | float64 =>
    simp only [Value.ofDecimal]
    cases Binary.ofDecimal64? number <;> rfl
  | bool | text | named _ => cases numeric

theorem truth {value : Value} (truth : value.ty = .bool) :
    Settles (fun _ => True) (fun error => error.isTypeError = false)
      (EvalError.lift value.truth) := by
  cases value <;> cases truth
  trivial

end Computes

namespace MathFunction

variable {function : MathFunction}

theorem within_typeErrorFree (x : Float) (inside : Bool) (result : Float) :
    TypeErrorFree (function.within x inside result) := by
  unfold within
  split <;> trivial

theorem applyFloat_typeErrorFree (arity : function.arity = 1) (x : Float) :
    TypeErrorFree (function.applyFloat x) := by
  cases function with
  | ln | sqrt | asin | acos => exact within_typeErrorFree _ _ _
  | log | min | max => cases arity
  | _ => trivial

theorem applyFloats_typeErrorFree (arity : function.arity = 2) (a b : Float) :
    TypeErrorFree (function.applyFloats a b) := by
  cases function with
  | log =>
    simp only [applyFloats]
    split <;> trivial
  | min | max => trivial
  | _ => cases arity

theorem applyDecimal_typeErrorFree (calculator : Calculator) (x : Decimal) :
    TypeErrorFree (function.applyDecimal calculator x) := by
  cases function with
  | exp => exact TypeErrorFree.expTo _ _
  | ln => exact TypeErrorFree.lnTo _ _
  | sqrt => exact TypeErrorFree.sqrt calculator _
  | _ => trivial

theorem applyDecimals_typeErrorFree (calculator : Calculator) (arity : function.arity = 2)
    (a b : Decimal) : TypeErrorFree (function.applyDecimals calculator a b) := by
  cases function with
  | log =>
    simp only [applyDecimals]
    split
    · rfl
    · exact .bind (TypeErrorFree.lnTo _ _) fun numerator =>
        .bind (TypeErrorFree.lnTo _ _) fun denominator => TypeErrorFree.divide _ _ _
  | min | max => trivial
  | _ => cases arity

theorem applySized_typeErrorFree {w : Width} (preserves : function.preservesIntegers)
    (arity : function.arity = 1) (n : Sized w) : TypeErrorFree (function.applySized n) := by
  cases function with
  | abs =>
    simp only [applySized]
    split <;> trivial
  | floor | ceil | round => trivial
  | min | max => cases arity
  | _ => cases preserves

theorem applySizedPair_typeErrorFree {w : Width} (preserves : function.preservesIntegers)
    (arity : function.arity = 2) (a b : Sized w) :
    TypeErrorFree (function.applySizedPair a b) := by
  cases function with
  | min | max => trivial
  | abs | floor | ceil | round => cases arity
  | _ => cases preserves

theorem arity_cases (function : MathFunction) : function.arity = 1 ∨ function.arity = 2 := by
  cases function <;> simp [arity]

/-- A function of numbers of one type gives a number of this type. Integers are left to the
    functions that keep them. -/
theorem apply_typed (calculator : Calculator) {type : Ty} {arguments : List Value}
    (numeric : type.isNumeric) (suits : function.preservesIntegers ∨ type.isInteger = false)
    (size : arguments.length = function.arity)
    (typed : ∀ argument ∈ arguments, argument.ty = type) :
    Settles (fun value => value.ty = type) (fun cause => cause.isTypeError = false)
      (function.apply calculator arguments) := by
  have arguments_eq : (∃ x, function.arity = 1 ∧ arguments = [x]) ∨
      ∃ a b, function.arity = 2 ∧ arguments = [a, b] := by
    rcases function.arity_cases with one | two
    · rw [one] at size
      exact .inl ((List.length_eq_one_iff.mp size).imp fun _ same => ⟨one, same⟩)
    · rw [two] at size
      obtain ⟨a, b, same⟩ := List.length_eq_two.mp size
      exact .inr ⟨a, b, two, same⟩
  rcases arguments_eq with ⟨x, one, rfl⟩ | ⟨a, b, two, rfl⟩
  · have same := typed x (by simp)
    subst same
    unfold apply
    simp only [size, ne_eq, not_true_eq_false, ↓reduceIte]
    cases x with
    | float64 x | float32 x => exact .map (applyFloat_typeErrorFree one _) fun _ _ => rfl
    | decimal x => exact .map (applyDecimal_typeErrorFree calculator x) fun _ _ => rfl
    | int32 n | int64 n =>
      have preserves := suits.resolve_right nofun
      exact .map (applySized_typeErrorFree preserves one n) fun _ _ => rfl
    | bool _ | text _ | object _ _ => cases numeric
  · have same := typed a (by simp)
    have other := typed b (by simp)
    subst same
    unfold apply
    simp only [size, ne_eq, not_true_eq_false, ↓reduceIte]
    cases a with
    | float64 a | float32 a =>
      cases b <;> cases other
      exact .map (applyFloats_typeErrorFree two _ _) fun _ _ => rfl
    | decimal a =>
      cases b <;> cases other
      exact .map (applyDecimals_typeErrorFree calculator two _ _) fun _ _ => rfl
    | int32 a | int64 a =>
      have preserves := suits.resolve_right nofun
      cases b <;> cases other
      exact .map (applySizedPair_typeErrorFree preserves two _ _) fun _ _ => rfl
    | bool _ | text _ | object _ _ => cases numeric

end MathFunction

end Formulary
