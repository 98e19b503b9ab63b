import Formulary.Proofs.Semantics.Compile

namespace Formulary

/-! A tree that has a value for some inputs can be compiled: its calls name functions with the
    right numbers of arguments, and its parts have values too. -/

theorem MathFunction.of_value_eq_ok {calculator : Calculator} {function : MathFunction}
    {values : List Decimal} {result : Decimal}
    (done : function.value calculator values = .ok result) :
    values.length = function.arity ∧ function.isTrigonometric = false := by
  obtain ⟨value, applied, -⟩ := bind_eq_ok.mp done
  have applied := EvalError.lift_eq_ok.mp applied
  unfold MathFunction.apply at applied
  split at applied
  · cases applied
  · rename_i counted
    have sized : values.length = function.arity := by simpa using counted
    refine ⟨sized, ?_⟩
    cases function with
    | sin | cos | tan | asin | acos | atan =>
      obtain ⟨x, rfl⟩ := List.length_eq_one_iff.mp sized
      cases applied
    | _ => rfl

namespace Expr

variable {calculator : Calculator} {inputs : String → Option Decimal} {frame : Frame}
variable {enter : Definition → List Definition → List Decimal → Except EvalError Decimal}

theorem valueWith_of_mem_combineWith {op : Operator} {operands : List Expr} {value result : Decimal}
    (done : combineWith calculator inputs enter op value operands frame = .ok result) :
    ∀ operand ∈ operands, ∃ part, operand.valueWith calculator inputs enter frame = .ok part := by
  induction operands generalizing value with
  | nil => exact fun _ member => nomatch member
  | cons first rest ih =>
    simp only [combineWith] at done
    obtain ⟨part, evaluated, done⟩ := bind_eq_ok.mp done
    obtain ⟨combined, -, done⟩ := bind_eq_ok.mp done
    rintro operand (_ | ⟨_, member⟩)
    · exact ⟨part, evaluated⟩
    · exact ih done operand member

theorem of_valuesWith_eq_ok {arguments : List Expr} {values : List Decimal}
    (done : valuesWith calculator inputs enter arguments frame = .ok values) :
    values.length = arguments.length ∧ ∀ argument ∈ arguments,
      ∃ part, argument.valueWith calculator inputs enter frame = .ok part := by
  induction arguments generalizing values with
  | nil =>
    cases done
    exact ⟨rfl, fun _ member => nomatch member⟩
  | cons first rest ih =>
    simp only [valuesWith] at done
    obtain ⟨part, evaluated, done⟩ := bind_eq_ok.mp done
    obtain ⟨others, collected, done⟩ := bind_eq_ok.mp done
    obtain ⟨counted, parts⟩ := ih collected
    cases done
    refine ⟨by simp [counted], ?_⟩
    rintro argument (_ | ⟨_, member⟩)
    · exact ⟨part, evaluated⟩
    · exact parts argument member

/-- The tree has a value for some inputs and some values of the parameters around it. -/
def Evaluable (compiler : Compiler) (names : List String) (definitions : List Definition)
    (expr : Expr) : Prop :=
  ∃ (depth : Nat) (given : String → Decimal) (values : List Decimal) (result : Decimal),
    values.length = names.length ∧
      expr.valueWithin compiler.calculator (compiler.options.decimals given) depth
        (.ofValues names values definitions) = .ok result

end Expr

namespace Fragment

theorem evaluable (compiler : Compiler) : Fragment compiler False (Expr.Evaluable compiler) where
  var := by
    rintro names definitions name ⟨depth, given, values, result, sized, done⟩
    simp only [Expr.valueWithin, Expr.valueWith, Frame.ofValues] at done
    cases found : (names.zip values).reverse.lookup name with
    | some value =>
      obtain ⟨before, after, equal, -⟩ := List.lookup_eq_some_iff.mp found
      have member : (name, value) ∈ (names.zip values).reverse := by simp [equal]
      exact .inl (List.of_mem_zip (List.mem_reverse.mp member)).1
    | none =>
      rw [found, Option.none_or, Options.decimals] at done
      split at done
      · rename_i input
        split at input
        · exact .inr ‹_›
        · cases input
      · cases done
  text := by
    rintro names definitions content ⟨_, _, _, _, _, done⟩
    cases done
  member := by
    rintro names definitions target name ⟨_, _, _, _, _, done⟩
    cases done
  unary := by
    rintro names definitions op operand ⟨depth, given, values, result, sized, done⟩
    cases op with
    | not => cases done
    | negate | factorial =>
      simp only [Expr.valueWithin, Expr.valueWith] at done
      obtain ⟨value, evaluated, -⟩ := bind_eq_ok.mp done
      exact ⟨by simp, depth, given, values, value, sized, evaluated⟩
  binary := by
    rintro names definitions op operands ⟨depth, given, values, result, sized, done⟩
    have nonempty : operands ≠ [] := by
      rintro rfl
      cases done
    have single : op.isArithmetic ∨ operands.length = 1 := by
      cases arithmetic : op.isArithmetic with
      | true => exact .inl rfl
      | false =>
        obtain ⟨operand, rfl⟩ := Expr.single_of_not_arithmetic arithmetic done
        exact .inr rfl
    obtain ⟨first, rest, rfl⟩ := List.exists_cons_of_ne_nil nonempty
    simp only [Expr.valueWithin, Expr.valueWith] at done
    obtain ⟨value, evaluated, continued⟩ := bind_eq_ok.mp done
    refine ⟨nonempty, single, ?_⟩
    rintro operand (_ | ⟨_, member⟩)
    · exact ⟨depth, given, values, value, sized, evaluated⟩
    · obtain ⟨part, evaluated⟩ := Expr.valueWith_of_mem_combineWith continued operand member
      exact ⟨depth, given, values, part, sized, evaluated⟩
  arguments := by
    rintro names definitions name arguments primed
      ⟨depth, given, values, result, sized, done⟩ argument member
    simp only [Expr.valueWithin, Expr.valueWith] at done
    obtain ⟨parts, collected, -⟩ := bind_eq_ok.mp done
    obtain ⟨part, evaluated⟩ := (Expr.of_valuesWith_eq_ok collected).2 argument member
    exact ⟨depth, given, values, part, sized, evaluated⟩
  defined := by
    rintro names definitions name arguments primed definition below
      ⟨depth, given, values, result, sized, done⟩ seen
    simp only [Expr.valueWithin, Expr.valueWith] at done
    obtain ⟨parts, collected, entered⟩ := bind_eq_ok.mp done
    have counted := (Expr.of_valuesWith_eq_ok collected).1
    simp only [Definition.applyNamed, Frame.ofValues, seen] at entered
    split at entered
    · rename_i arity
      rw [counted] at arity
      refine ⟨fun wrong => wrong arity, fun _ => ?_⟩
      cases depth with
      | zero => cases entered
      | succ depth => exact ⟨depth, given, parts, result, counted.trans arity, entered⟩
    · cases entered
  builtin := by
    rintro names definitions name arguments primed
      ⟨depth, given, values, result, sized, done⟩ hidden
    simp only [Expr.valueWithin, Expr.valueWith] at done
    obtain ⟨parts, collected, applied⟩ := bind_eq_ok.mp done
    have counted := (Expr.of_valuesWith_eq_ok collected).1
    simp only [Definition.applyNamed, Frame.ofValues, hidden] at applied
    cases primed with
    | true => cases applied
    | false =>
      simp only [Bool.false_eq_true, if_false] at applied
      split at applied
      · rename_i function named
        obtain ⟨arity, plain⟩ := MathFunction.of_value_eq_ok applied
        exact ⟨rfl, function, named, plain, fun wrong => wrong (counted.symm.trans arity)⟩
      · cases applied
  define := by
    rintro names definitions name parameters body value
      ⟨depth, given, values, result, sized, done⟩
    exact ⟨depth, given, values, result, sized, done⟩

end Fragment

end Formulary
