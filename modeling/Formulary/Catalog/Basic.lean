import Formulary.Table
import Formulary.Value.Number

namespace Formulary

/-! A catalog of declared types: their supertypes, their members and the conversions that were
    declared with them. -/

structure Conversion where
  name : String
  source : Ty
  target : Ty
  /-- Whether it may be used without being asked for. -/
  implicit : Bool
  apply : Value → Except Fault Value

structure Declaration where
  type : Ty
  supertype : Option Ty := none
  members : Table Ty := []
  conversions : List Conversion := []

structure Catalog where
  declarations : List Declaration := []

namespace Catalog

def empty : Catalog := {}

instance : Inhabited Catalog := ⟨empty⟩

/-- Add a declaration; an earlier one of the same type is dropped. -/
def declare (catalog : Catalog) (declaration : Declaration) : Catalog :=
  ⟨catalog.declarations.filter (fun other => other.type != declaration.type) ++ [declaration]⟩

def find? (catalog : Catalog) (type : Ty) : Option Declaration :=
  catalog.declarations.find? fun declaration => declaration.type == type

def supertype? (catalog : Catalog) (type : Ty) : Option Ty :=
  (catalog.find? type).bind (·.supertype)

/-- Whether `upper` is reached from `lower` by at most `steps` supertype links. -/
def reaches (catalog : Catalog) (upper : Ty) : Nat → Ty → Bool
  | 0, lower => lower == upper
  | steps + 1, lower =>
    lower == upper ||
      match catalog.supertype? lower with
      | some parent => reaches catalog upper steps parent
      | none => false

/-- Whether a type is another one or has it among its supertypes. A chain of supertypes without
    repetition has a declaration for each link. -/
def isSubtype (catalog : Catalog) (lower upper : Ty) : Bool :=
  catalog.reaches upper catalog.declarations.length lower

/-- Type of a member declared by one of the first `steps` types of a chain of supertypes. -/
def memberWithin (catalog : Catalog) (name : String) : Nat → Ty → Option Ty
  | 0, _ => none
  | steps + 1, type => do
    let declaration ← catalog.find? type
    match declaration.members.get? name with
    | some found => some found
    | none => memberWithin catalog name steps (← declaration.supertype)

/-- Type of a member, declared by the type itself or by the nearest supertype that has it. -/
def memberType? (catalog : Catalog) (type : Ty) (name : String) : Option Ty :=
  catalog.memberWithin name catalog.declarations.length type

/-- All declared conversions in the order of their declaration. -/
def conversions (catalog : Catalog) : List Conversion :=
  catalog.declarations.flatMap (·.conversions)

/-- Declared conversions from or to a type. -/
def conversionsOn (catalog : Catalog) (type : Ty) : List Conversion :=
  catalog.conversions.filter fun conversion =>
    conversion.source == type || conversion.target == type

end Catalog

end Formulary
