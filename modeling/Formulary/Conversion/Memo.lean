import Formulary.CompileError
import Formulary.Conversion.Search

namespace Formulary

/-! A memory of search results and of the conversions listed for a type. It may be shared by many
    searches. The first entry stored under a key stays, also when another search stores one for the
    same key in the meantime. -/

structure Memo where
  entries : List ((Ty × Ty) × Option Path) := []
  /-- Conversions from or to a type. -/
  listings : List (Ty × List Conversion) := []

namespace Memo

def empty : Memo := {}

/-- The stored result for a pair; the result itself may be that there is no path. -/
def get? (memo : Memo) (source target : Ty) : Option (Option Path) :=
  memo.entries.lookup (source, target)

/-- Store a result unless there is one, and give the result that is stored. -/
def insert (memo : Memo) (source target : Ty) (path : Option Path) : Option Path × Memo :=
  match memo.get? source target with
  | some stored => (stored, memo)
  | none => (path, { memo with entries := ((source, target), path) :: memo.entries })

def listing? (memo : Memo) (type : Ty) : Option (List Conversion) := memo.listings.lookup type

/-- Store a listing unless there is one, and give the listing that is stored. -/
def insertListing (memo : Memo) (type : Ty) (conversions : List Conversion) :
    List Conversion × Memo :=
  match memo.listing? type with
  | some stored => (stored, memo)
  | none => (conversions, { memo with listings := (type, conversions) :: memo.listings })

def size (memo : Memo) : Nat := memo.entries.length

/-- What is done to a memory at one time, with no other access in between. -/
inductive Access where
  | result (source target : Ty)
  | storeResult (source target : Ty) (path : Option Path)
  | listing (type : Ty)
  | storeListing (type : Ty) (conversions : List Conversion)

def Access.Answer : Access → Type
  | result _ _ => Option (Option Path)
  | storeResult _ _ _ => Option Path
  | listing _ => Option (List Conversion)
  | storeListing _ _ => List Conversion

def perform (memo : Memo) : (access : Access) → access.Answer × Memo
  | .result source target => (memo.get? source target, memo)
  | .storeResult source target path => memo.insert source target path
  | .listing type => (memo.listing? type, memo)
  | .storeListing type conversions => memo.insertListing type conversions

end Memo

/-- A computation that consults a memory, one access after the other. -/
inductive Session (α : Type) where
  | done (result : α)
  | ask (access : Memo.Access) (resume : access.Answer → Session α)

namespace Session

def bind : Session α → (α → Session β) → Session β
  | done result, next => next result
  | ask access resume, next => ask access fun answer => (resume answer).bind next

instance : Monad Session where
  pure := done
  bind := bind

/-- The whole computation on a memory that nothing else changes. -/
def run : Session α → StateM Memo α
  | done result => pure result
  | ask access resume => do
    let answer ← modifyGet (·.perform access)
    (resume answer).run

/-- The stored listing of a type, or else the listing of the catalog, which is then stored. -/
def conversionsOn (catalog : Catalog) (type : Ty) : Session (List Conversion) :=
  ask (.listing type) fun
    | some stored => done stored
    | none => ask (.storeListing type (catalog.conversionsOn type)) done

/-- The cheapest of the paths that are found for some conversions, and of the best one so far. -/
def cheapest (path : Conversion → Session (Option Path)) :
    Option Path → List Conversion → Session (Option Path)
  | best, [] => done best
  | best, conversion :: rest => do
    let candidate ← path conversion
    cheapest path (Path.cheaper best candidate) rest

/-- The search for a path, with listings from the memory. -/
def searchWithin (catalog : Catalog) : Nat → List (Ty × Ty) → Ty → Ty → Session (Option Path)
  | 0, _, _, _ => done none
  | depth + 1, inProgress, source, target =>
    if catalog.isSubtype source target then done (some [])
    else if source.isPrimitiveNumeric && target.isPrimitiveNumeric then
      done (some [.cast source target])
    else if inProgress.contains (source, target) then done none
    else do
      let search := searchWithin catalog depth ((source, target) :: inProgress)
      let forward ← conversionsOn catalog source
      let fromSource ← cheapest (fun conversion => do
          return (← search conversion.target target).map (.declared conversion :: ·))
        none (forward.filter (·.source == source))
      let backward ← conversionsOn catalog target
      let toTarget ← cheapest (fun conversion => do
          return (← search source conversion.source).map (· ++ [.declared conversion]))
        none (backward.filter (·.target == target))
      return Path.cheapest [fromSource, toTarget, Catalog.truthPath? source target]

/-- The stored path, or else the path found by a search, which is then stored. -/
def find (catalog : Catalog) (source target : Ty) : Session (Option Path) :=
  ask (.result source target) fun
    | some stored => done stored
    | none => do
      let path ← searchWithin catalog catalog.searchDepth [] source target
      ask (.storeResult source target path) done

def require (catalog : Catalog) (source target : Ty) : Session (Except CompileError Path) := do
  match ← find catalog source target with
  | some path => return .ok path
  | none => return .error (.noConversion source target)

def converts (catalog : Catalog) (source target : Ty) : Session Bool := do
  return (← find catalog source target).isSome

/-- Whether all types convert to a candidate; the search ends at the first that does not. -/
def allConvert (catalog : Catalog) (candidate : Ty) : List Ty → Session Bool
  | [] => done true
  | type :: rest => do
    if ← converts catalog type candidate then allConvert catalog candidate rest
    else return false

/-- The first candidate to which all types convert. -/
def firstReached (catalog : Catalog) (types : List Ty) : List Ty → Session (Option Ty)
  | [] => done none
  | candidate :: rest => do
    if ← allConvert catalog candidate types then return some candidate
    else firstReached catalog types rest

def widest (catalog : Catalog) (types : List Ty) : Session (Option Ty) :=
  firstReached catalog types (Catalog.byWidth types)

end Session

namespace Memo

def find (catalog : Catalog) (source target : Ty) : StateM Memo (Option Path) :=
  (Session.find catalog source target).run

def require (catalog : Catalog) (source target : Ty) :
    StateM Memo (Except CompileError Path) := (Session.require catalog source target).run

def converts (catalog : Catalog) (source target : Ty) : StateM Memo Bool :=
  (Session.converts catalog source target).run

def widest (catalog : Catalog) (types : List Ty) : StateM Memo (Option Ty) :=
  (Session.widest catalog types).run

end Memo

end Formulary
