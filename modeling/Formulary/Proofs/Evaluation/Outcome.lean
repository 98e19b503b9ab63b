import Formulary.Evaluation.Comparison

namespace Formulary

/-! Outcomes of evaluations that can fail, described by the values and by the errors that they
    may have. -/

namespace Operator

/-- Whether a logical operator asks for its second operand, once the first one is known. -/
def asks : Operator → Bool → Bool
  | and, first | nand, first => first
  | or, first | nor, first => !first
  | xor, _ | xnor, _ => true
  | _, _ => false

theorem connect_of_asks {op : Operator} {first : Bool} (asked : op.asks first)
    {second : Unit → Except EvalError Bool} {error : EvalError} (failed : second () = .error error) :
    op.connect first second = .error error := by
  cases op with
  | and | nand =>
    cases first with
    | true => simp only [connect, failed, Except.map, ↓reduceIte]
    | false => cases asked
  | or | nor =>
    cases first with
    | true => cases asked
    | false => simp only [connect, failed, Except.map, Bool.false_eq_true, ↓reduceIte]
  | xor | xnor => simp only [connect, failed, Except.map]
  | _ => cases asked

end Operator

def Settles (value : α → Prop) (failure : ε → Prop) : Except ε α → Prop
  | .ok result => value result
  | .error error => failure error

namespace Settles

variable {value value' : α → Prop} {result : β → Prop} {failure failure' : ε → Prop}

instance [DecidablePred value] [DecidablePred failure] :
    DecidablePred (Settles value failure) := fun outcome =>
  match outcome with
  | .ok result => inferInstanceAs (Decidable (value result))
  | .error error => inferInstanceAs (Decidable (failure error))

theorem weaken {outcome : Except ε α} (settles : Settles value failure outcome)
    (values : ∀ a, value a → value' a) (errors : ∀ error, failure error → failure' error) :
    Settles value' failure' outcome := by
  cases outcome with
  | ok a => exact values a settles
  | error error => exact errors error settles

theorem bind {outcome : Except ε α} {next : α → Except ε β} (settles : Settles value failure outcome)
    (continued : ∀ a, value a → Settles result failure (next a)) :
    Settles result failure (outcome >>= next) := by
  cases outcome with
  | ok a => exact continued a settles
  | error error => exact settles

/-- The continuation may use how its argument came about. -/
theorem bind_of_eq {outcome : Except ε α} {next : α → Except ε β}
    (settles : Settles value failure outcome)
    (continued : ∀ a, outcome = .ok a → value a → Settles result failure (next a)) :
    Settles result failure (outcome >>= next) := by
  cases outcome with
  | ok a => exact continued a rfl settles
  | error error => exact settles

theorem map {outcome : Except ε α} {change : α → β} (settles : Settles value failure outcome)
    (values : ∀ a, value a → result (change a)) :
    Settles result failure (outcome.map change) := by
  cases outcome with
  | ok a => exact values a settles
  | error error => exact settles

theorem lift {failure : EvalError → Prop} {outcome : Except Fault α}
    (settles : Settles value (fun cause => failure (.fault cause)) outcome) :
    Settles value failure (EvalError.lift outcome) := by
  cases outcome with
  | ok a => exact settles
  | error cause => exact settles

theorem of_ok {outcome : Except ε α} (settles : Settles value failure outcome) {a : α}
    (done : outcome = .ok a) : value a := by
  rw [done] at settles
  exact settles

theorem exists_ok {outcome : Except ε α} (settles : Settles value (fun _ => False) outcome) :
    ∃ a, outcome = .ok a ∧ value a := by
  cases outcome with
  | ok a => exact ⟨a, rfl, settles⟩
  | error error => exact settles.elim

theorem exists_error {outcome : Except ε α} (settles : Settles (fun _ => False) failure outcome) :
    ∃ error, outcome = .error error ∧ failure error := by
  cases outcome with
  | ok a => exact settles.elim
  | error error => exact ⟨error, rfl, settles⟩

theorem of_error {outcome : Except ε α} (settles : Settles value failure outcome) {error : ε}
    (failed : outcome = .error error) : failure error := by
  rw [failed] at settles
  exact settles

/-- A logical operator fails where its second operand does; other operators are not logical. -/
theorem connect {failure : EvalError → Prop} {op : Operator} {first : Bool}
    {second : Unit → Except EvalError Bool}
    (settles : op.asks first → Settles (fun _ => True) failure (second ())) (other : op.isLogical = false →
      failure (.typeError ("`" ++ op.symbol ++ "` is not a logical operator"))) :
    Settles (fun _ => True) failure (op.connect first second) := by
  have changed (asked : op.asks first) : ∀ change : Bool → Bool,
      Settles (fun _ => True) failure ((second ()).map change) :=
    fun change => (settles asked).map fun _ _ => trivial
  cases op with
  | and =>
    cases first with
    | true => exact settles rfl
    | false => trivial
  | or =>
    cases first with
    | true => trivial
    | false => exact settles rfl
  | nand =>
    cases first with
    | true => exact changed rfl _
    | false => trivial
  | nor =>
    cases first with
    | true => trivial
    | false => exact changed rfl _
  | xor | xnor => exact changed rfl _
  | _ => exact other rfl

end Settles

/-- Two outcomes are related values, or related errors. -/
def Matches (value : α → β → Prop) (failure : ε → δ → Prop) : Except ε α → Except δ β → Prop
  | .ok left, .ok right => value left right
  | .error left, .error right => failure left right
  | _, _ => False

namespace Matches

variable {value : α → β → Prop} {failure : ε → δ → Prop}

theorem bind {value' : α' → β' → Prop} {left : Except ε α} {right : Except δ β}
    {next : α → Except ε α'} {next' : β → Except δ β'} (first : Matches value failure left right)
    (continued : ∀ a b, value a b → Matches value' failure (next a) (next' b)) :
    Matches value' failure (left >>= next) (right >>= next') := by
  cases left with
  | ok a =>
    cases right with
    | ok b => exact continued a b first
    | error error => exact first.elim
  | error error =>
    cases right with
    | ok b => exact first.elim
    | error other => exact first

theorem trans {value' : β → γ → Prop} {value'' : α → γ → Prop} {failure' : δ → ζ → Prop}
    {failure'' : ε → ζ → Prop} {left : Except ε α} {middle : Except δ β} {right : Except ζ γ}
    (first : Matches value failure left middle) (second : Matches value' failure' middle right)
    (values : ∀ a b c, value a b → value' b c → value'' a c)
    (failures : ∀ a b c, failure a b → failure' b c → failure'' a c) :
    Matches value'' failure'' left right := by
  cases left <;> cases middle <;> cases right
  case ok.ok.ok a b c => exact values a b c first second
  case error.error.error a b c => exact failures a b c first second
  all_goals first | exact first.elim | exact second.elim

theorem symm {left : Except ε α} {right : Except δ β} (matched : Matches value failure left right) :
    Matches (fun b a => value a b) (fun b a => failure a b) right left := by
  cases left <;> cases right <;> exact matched

theorem of_ok {left : Except ε α} {right : Except δ β} (matched : Matches value failure left right)
    {a : α} (done : left = .ok a) : ∃ b, right = .ok b ∧ value a b := by
  subst done
  cases right with
  | ok b => exact ⟨b, rfl, matched⟩
  | error error => exact matched.elim

end Matches

theorem EvalError.lift_eq_ok {outcome : Except Fault α} {a : α} :
    EvalError.lift outcome = .ok a ↔ outcome = .ok a := by
  cases outcome with
  | ok result => simp [EvalError.lift]
  | error cause => simp [EvalError.lift]

theorem bind_eq_ok {outcome : Except ε α} {next : α → Except ε β} {result : β} :
    outcome >>= next = .ok result ↔ ∃ a, outcome = .ok a ∧ next a = .ok result := by
  cases outcome with
  | ok a => exact ⟨fun done => ⟨a, rfl, done⟩, fun ⟨_, rfl, done⟩ => done⟩
  | error error => exact ⟨(nomatch ·), fun ⟨_, failed, _⟩ => nomatch failed⟩

theorem bind_eq_error {outcome : Except ε α} {next : α → Except ε β} {error : ε} :
    outcome >>= next = .error error ↔
      outcome = .error error ∨ ∃ a, outcome = .ok a ∧ next a = .error error := by
  cases outcome with
  | ok a => exact ⟨fun failed => .inr ⟨a, rfl, failed⟩, fun
      | .inr ⟨_, rfl, failed⟩ => failed⟩
  | error other => exact ⟨fun | rfl => .inl rfl, fun | .inl rfl => rfl⟩

/-- Where the first outcome is a value, so is the second, and the values are related. -/
def Improves (value : α → β → Prop) (left : Except ε α) (right : Except δ β) : Prop :=
  ∀ a, left = .ok a → ∃ b, right = .ok b ∧ value a b

namespace Improves

theorem of_error {value : α → β → Prop} {error : ε} {right : Except δ β} :
    Improves value (.error error : Except ε α) right := fun _ done => nomatch done

theorem ok {value : α → β → Prop} {a : α} {b : β} (related : value a b) :
    Improves value (.ok a : Except ε α) (.ok b : Except δ β) := by
  rintro _ ⟨⟩
  exact ⟨b, rfl, related⟩

theorem bind {value : α → β → Prop} {value' : α' → β' → Prop} {left : Except ε α}
    {right : Except δ β} {next : α → Except ε α'} {next' : β → Except δ β'}
    (first : Improves value left right)
    (continued : ∀ a b, value a b → Improves value' (next a) (next' b)) :
    Improves value' (left >>= next) (right >>= next') := by
  intro result done
  obtain ⟨a, leftDone, nextDone⟩ := bind_eq_ok.mp done
  obtain ⟨b, rightDone, related⟩ := first a leftDone
  obtain ⟨result', nextDone', related'⟩ := continued a b related result nextDone
  exact ⟨result', bind_eq_ok.mpr ⟨b, rightDone, nextDone'⟩, related'⟩

theorem trans {value : α → β → Prop} {value' : β → γ → Prop} {value'' : α → γ → Prop}
    {left : Except ε α} {middle : Except δ β} {right : Except ζ γ} (first : Improves value left middle)
    (second : Improves value' middle right)
    (composed : ∀ a b c, value a b → value' b c → value'' a c) : Improves value'' left right := by
  intro a done
  obtain ⟨b, middleDone, related⟩ := first a done
  obtain ⟨c, rightDone, related'⟩ := second b middleDone
  exact ⟨c, rightDone, composed a b c related related'⟩

end Improves

theorem Matches.improves {value : α → β → Prop} {failure : ε → δ → Prop} {left : Except ε α}
    {right : Except δ β} (matched : Matches value failure left right) :
    Improves value left right := fun _ done => matched.of_ok done

/-- The kind of a fault, without the detail. -/
def Fault.kind (fault : Fault) : Nat := fault.ctorIdx

/-- The kind of an error; for a fault also the kind of the fault. -/
def EvalError.kind (error : EvalError) : Nat × Option Nat :=
  (error.ctorIdx, match error with
    | fault cause => some cause.kind
    | _ => none)

/-- Two computations have related results, or faults of one kind. -/
abbrev Fault.Alike (value : α → β → Prop) : Except Fault α → Except Fault β → Prop :=
  Matches value fun left right => left.kind = right.kind

theorem Fault.Alike.refl (outcome : Except Fault α) : Fault.Alike Eq outcome outcome := by
  cases outcome <;> rfl

/-- Two evaluations have related results, or errors of one kind. -/
abbrev EvalError.Alike (value : α → β → Prop) : Except EvalError α → Except EvalError β → Prop :=
  Matches value fun left right => left.kind = right.kind

theorem EvalError.Alike.lift {value : α → β → Prop} {left : Except Fault α}
    {right : Except Fault β} (alike : Fault.Alike value left right) :
    EvalError.Alike value (EvalError.lift left) (EvalError.lift right) := by
  cases left with
  | ok a =>
    cases right with
    | ok b => exact alike
    | error cause => exact alike.elim
  | error cause =>
    cases right with
    | ok b => exact alike.elim
    | error other => exact congrArg (fun kind => (_, some kind)) alike

end Formulary
