import Formulary.Lowering.Operand
import Formulary.Proofs.Conversion.Linked

namespace Formulary

/-! Conversion of nodes and conversion of values. A node is converted when a program is compiled: it
    is left alone, replaced by a constant, or put under one conversion for each step of a path. In
    each of these ways it evaluates to what the steps make of its value when it is run. -/

/-- What steps make of a value, one after the other: the value that the last of them gives, or the
    fault of the first one that fails. -/
inductive Path.Yields : Value → Path → Except Fault Value → Prop
  | done (value : Value) : Yields value [] (.ok value)
  | fails {value : Value} {step : Step} {cause : Fault} (failed : step.apply value = .error cause)
      (rest : Path) : Yields value (step :: rest) (.error cause)
  | step {value next : Value} {step : Step} {rest : Path} {outcome : Except Fault Value}
      (applied : step.apply value = .ok next) (yields : Yields next rest outcome) :
      Yields value (step :: rest) outcome

theorem Path.apply_cons (step : Step) (rest : Path) (value : Value) :
    Path.apply (step :: rest) value = step.apply value >>= Path.apply rest := List.foldlM_cons

theorem Path.yields_iff {value : Value} {path : Path} {outcome : Except Fault Value} :
    Path.Yields value path outcome ↔ path.apply value = outcome := by
  constructor
  · intro yields
    induction yields with
    | done value => rfl
    | fails failed rest =>
      rw [apply_cons, failed]
      rfl
    | step applied _ ih =>
      rw [apply_cons, applied]
      exact ih
  · intro applied
    induction path generalizing value with
    | nil =>
      subst applied
      exact .done value
    | cons step rest ih =>
      rw [apply_cons] at applied
      cases first : step.apply value with
      | error cause =>
        rw [first] at applied
        subst applied
        exact .fails first rest
      | ok next =>
        rw [first] at applied
        exact .step first (ih applied)

namespace Node

/-- A node converted along a path: a constant at once, if the path succeeds on it, and any other
    node step by step. -/
def along (node : Node) (path : Path) : Node :=
  match node with
  | constant value =>
    match path.apply value with
    | .ok converted => constant converted
    | .error _ => node.converted path
  | node => node.converted path

theorem along_nil (node : Node) : node.along [] = node := by
  cases node <;> rfl

theorem converted_ne_constant {node : Node} (step : Step) (rest : Path) (value : Value) :
    node.converted (step :: rest) ≠ constant value := by
  induction rest generalizing node step with
  | nil => simp [converted]
  | cons next rest ih => exact ih next

theorem along_constant_iff {value converted : Value} {path : Path} :
    (constant value).along path = constant converted ↔ path.apply value = .ok converted := by
  cases applied : path.apply value with
  | ok result => simp [along, applied]
  | error cause =>
    simp only [along, applied, reduceCtorEq, iff_false]
    cases path with
    | nil => cases applied
    | cons step rest => exact converted_ne_constant step rest converted

theorem evalWith_along {calculator : Calculator}
    {call : Nat → List Value → Except EvalError Value} {slots parameters : List Value}
    (node : Node) (path : Path) :
    (node.along path).evalWith calculator call slots parameters =
      (node.evalWith calculator call slots parameters >>= fun value =>
        EvalError.lift (path.apply value)) := by
  cases node with
  | constant value =>
    cases applied : path.apply value with
    | ok converted =>
      rw [along_constant_iff.mpr applied, evalWith, evalWith]
      exact congrArg EvalError.lift applied.symm
    | error cause =>
      simp only [along, applied]
      exact evalWith_converted (.constant value) path
  | _ => exact evalWith_converted _ path

end Node

namespace Catalog

variable {catalog : Catalog} {node : Node} {target : Ty} {path : Path}

theorem path?_self (catalog : Catalog) (type : Ty) : catalog.path? type type = some [] := by
  rw [path?, searchDepth, searchWithin, if_pos (isSubtype_self type)]

theorem coerce_of_path? (found : catalog.path? node.ty target = some path) :
    catalog.coerce node target = .ok (node.along path) := by
  unfold coerce
  split
  · rename_i same
    rw [same, path?_self] at found
    cases found
    rw [Node.along_nil]
  · rw [found]
    cases node with
    | constant value =>
      simp only [Node.along]
      cases path.apply value <;> rfl
    | _ => rfl

theorem coerce_of_no_path (missing : catalog.path? node.ty target = none) :
    catalog.coerce node target = .error (.noConversion node.ty target) := by
  unfold coerce
  split
  · rename_i same
    rw [same, path?_self] at missing
    cases missing
  · rw [missing]

/-- A node can be converted to a type where there is a path to it. Whatever the node is and wherever
    it is evaluated, the converted node fails as the node does, and where the node has a value it
    has the outcome of the steps of the path on that value, taken in order. A constant becomes
    another one exactly where the whole path succeeds on it. -/
theorem coerce_evaluates (catalog : Catalog) (node : Node) (target : Ty) :
    (catalog.path? node.ty target = none →
      catalog.coerce node target = .error (.noConversion node.ty target)) ∧
    ∀ path, catalog.path? node.ty target = some path →
      ∃ coerced, catalog.coerce node target = .ok coerced ∧
        (∀ calculator call slots parameters,
          (∀ error, node.evalWith calculator call slots parameters = .error error →
            coerced.evalWith calculator call slots parameters = .error error) ∧
          ∀ value, node.evalWith calculator call slots parameters = .ok value →
            ∃ outcome, Path.Yields value path outcome ∧
              coerced.evalWith calculator call slots parameters = EvalError.lift outcome) ∧
        ∀ value, node = .constant value →
          ∀ converted, coerced = .constant converted ↔ Path.Yields value path (.ok converted) := by
  refine ⟨coerce_of_no_path, fun path found => ⟨node.along path, coerce_of_path? found, ?_, ?_⟩⟩
  · intro calculator call slots parameters
    rw [Node.evalWith_along]
    constructor
    · intro error failed
      rw [failed]
      rfl
    · intro value evaluated
      refine ⟨path.apply value, Path.yields_iff.mpr rfl, ?_⟩
      rw [evaluated]
      rfl
  · rintro value rfl converted
    rw [Node.along_constant_iff, Path.yields_iff]

end Catalog

/-- A visitor with a badge that has a number. -/
def numberedVisitor : Value :=
  .object "Visitor" [("badge", .object "Badge" [("number", .float64 7)])]

/-- A visitor with a badge that has none. -/
def plainVisitor : Value := .object "Visitor" [("badge", .object "Badge" [])]

/-- The number of a registered visitor is known when the program is compiled. The other visitor has
    a badge, so that the first step succeeds, and the missing number is the error of the second. -/
theorem admissions_coerce :
    admissions.coerce (.constant numberedVisitor) .float64 = .ok (.constant (.float64 7)) ∧
    ∃ coerced, admissions.coerce (.constant plainVisitor) .float64 = .ok coerced ∧
      coerced.evalWith .standard (fun _ _ => .error (.unknownFunction 0)) [] [] =
        .error (.fault (.memberNotFound "Badge.number")) ∧
      ∀ converted, coerced ≠ .constant converted := by
  have path : admissions.path? (.named "Visitor") .float64 =
      some [.declared badge, .declared passNumber] := rfl
  have failure : Path.Yields plainVisitor [.declared badge, .declared passNumber]
      (.error (.memberNotFound "Badge.number")) := .step rfl (.fails rfl [])
  obtain ⟨coerced, done, -, constants⟩ :=
    (Catalog.coerce_evaluates admissions (.constant numberedVisitor) .float64).2 _ path
  obtain ⟨other, otherDone, evaluates, aside⟩ :=
    (Catalog.coerce_evaluates admissions (.constant plainVisitor) .float64).2 _ path
  refine ⟨?_, other, otherDone, ?_, fun converted same => ?_⟩
  · rw [done, (constants _ rfl (.float64 7)).mpr (.step rfl (.step rfl (.done _)))]
  · obtain ⟨outcome, yields, evaluated⟩ := (evaluates _ _ _ _).2 plainVisitor rfl
    rw [evaluated, ← Path.yields_iff.mp yields, Path.yields_iff.mp failure]
    rfl
  · have applied := Path.yields_iff.mp ((aside _ rfl converted).mp same)
    rw [Path.yields_iff.mp failure] at applied
    cases applied

end Formulary
