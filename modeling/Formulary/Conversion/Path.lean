import Formulary.Catalog.Basic

namespace Formulary

/-! Chains of conversion steps from one type to another. -/

inductive Step where
  /-- From one machine number type to another. -/
  | cast (source target : Ty)
  | declared (conversion : Conversion)
  /-- Whether a number differs from zero. -/
  | nonzero (source : Ty)
  /-- One for true and zero for false. -/
  | select (target : Ty)

namespace Step

def source : Step → Ty
  | cast source _ => source
  | declared conversion => conversion.source
  | nonzero source => source
  | select _ => .bool

def target : Step → Ty
  | cast _ target => target
  | declared conversion => conversion.target
  | nonzero _ => .bool
  | select target => target

def isImplicit : Step → Bool
  | declared conversion => conversion.implicit
  | _ => true

def apply (step : Step) (value : Value) : Except Fault Value :=
  match step with
  | cast _ target => value.cast target
  | declared conversion => conversion.apply value
  | nonzero _ => value.truth.map Value.bool
  | select target =>
    let selected := match value with
      | .bool true => Value.one? target
      | .bool false => Value.zero? target
      | _ => none
    match selected with
    | some value => .ok value
    | none => .error (.typeError ("cannot select " ++ target.name ++ " from " ++ value.ty.name))

/-- How much information the step can lose. -/
def loss : Step → Nat
  | cast source target =>
    if source.isFloat && !target.isFloat then 2
    else if !source.isFloat && target.isFloat then 1
    else if target.width < source.width then 1
    else 0
  | nonzero _ => 1
  | _ => 0

def text : Step → String
  | cast source target => source.name ++ " as " ++ target.name
  | declared conversion => conversion.name
  | nonzero source => source.name ++ " != 0"
  | select target => "bool ? 1 : 0 as " ++ target.name

end Step

/-- Steps in the order in which they are applied; without steps a value stays as it is. -/
abbrev Path := List Step

namespace Path

def apply (path : Path) (value : Value) : Except Fault Value :=
  path.foldlM (fun value step => step.apply value) value

def explicitCount (path : Path) : Nat := path.countP fun step => !step.isImplicit

def loss (path : Path) : Nat := path.foldr (·.loss + ·) 0

/-- Whether a path is at most as costly as another: shorter, then with fewer explicit steps,
    then with less loss. -/
def atMost (a b : Path) : Bool :=
  if a.length ≠ b.length then a.length < b.length
  else if a.explicitCount ≠ b.explicitCount then a.explicitCount < b.explicitCount
  else a.loss ≤ b.loss

/-- The cheaper of two paths, the first of equally cheap ones. -/
def cheaper (best candidate : Option Path) : Option Path :=
  match best, candidate with
  | some best, some candidate => if best.atMost candidate then some best else some candidate
  | some best, none => some best
  | none, candidate => candidate

/-- The first of the cheapest paths of a list. -/
def cheapest (candidates : List (Option Path)) : Option Path := candidates.foldl cheaper none

def text (path : Path) : String :=
  if path.isEmpty then "identity" else " -> ".intercalate (path.map Step.text)

end Path

end Formulary
