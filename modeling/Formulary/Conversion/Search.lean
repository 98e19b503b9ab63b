import Formulary.Conversion.Path

namespace Formulary.Catalog

open scoped Powers

/-! Search for the cheapest chain of conversions. A chain is extended at either end, and a pair
    of types for which the search is under way is not searched again inside itself. -/

/-- The conversion between numbers and truth values that every catalog has. -/
def truthPath? (source target : Ty) : Option Path :=
  if target == .bool && source.isNumeric then some [.nonzero source]
  else if source == .bool && target.isNumeric then some [.select target]
  else none

/-- The cheapest path found with `depth` nested searches, outside the pairs in progress. -/
def searchWithin (catalog : Catalog) : Nat → List (Ty × Ty) → Ty → Ty → Option Path
  | 0, _, _, _ => none
  | depth + 1, inProgress, source, target =>
    if catalog.isSubtype source target then some []
    else if source.isPrimitiveNumeric && target.isPrimitiveNumeric then
      some [.cast source target]
    else if inProgress.contains (source, target) then none
    else
      let search := searchWithin catalog depth ((source, target) :: inProgress)
      let forward := catalog.conversions.filter (·.source == source)
      let backward := catalog.conversions.filter (·.target == target)
      let fromSource := Path.cheapest <| forward.map fun conversion =>
        (search conversion.target target).map (.declared conversion :: ·)
      let toTarget := Path.cheapest <| backward.map fun conversion =>
        (search source conversion.source).map (· ++ [.declared conversion])
      Path.cheapest [fromSource, toTarget, truthPath? source target]

/-- Bound on the nesting of searches: one for each pair of types in play, and one more. -/
def searchDepth (catalog : Catalog) : Nat := (2 * catalog.conversions.length + 2) ^ (2 : Nat) + 1

/-- The cheapest path from one type to another, if they are connected. -/
def path? (catalog : Catalog) (source target : Ty) : Option Path :=
  catalog.searchWithin catalog.searchDepth [] source target

def converts (catalog : Catalog) (source target : Ty) : Bool := (catalog.path? source target).isSome

/-- Put a type in front of the first one that is not wider. -/
def insertByWidth (type : Ty) : List Ty → List Ty
  | [] => [type]
  | other :: rest =>
    if other.width ≤ type.width then type :: other :: rest else other :: insertByWidth type rest

/-- Types from the widest to the narrowest, equally wide ones in their order. -/
def byWidth (types : List Ty) : List Ty := types.foldr insertByWidth []

/-- The widest of several types to which all of them convert; the first of equally wide ones. -/
def widest? (catalog : Catalog) (types : List Ty) : Option Ty :=
  (byWidth types).find? fun candidate =>
    types.all fun type => catalog.converts type candidate

end Formulary.Catalog
