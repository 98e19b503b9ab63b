import Mathlib.Data.List.Chain
import Formulary.Proofs.Conversion.Inheritance

namespace Formulary

/-! How the steps of a path meet. Subtyping takes the place of a step that nothing has to be done
    for: at both ends of a path and between any two steps of it a value may stand for one of a
    supertype, and only there. -/

/-- The path can be followed from one type to another, with nothing but subtyping between its
    steps. -/
structure Path.Linked (catalog : Catalog) (source : Ty) (path : Path) (target : Ty) : Prop where
  stays : path = [] → catalog.isSubtype source target
  starts : ∀ first ∈ path.head?, catalog.isSubtype source first.source
  meets : path.IsChain fun step next => catalog.isSubtype step.target next.source
  ends : ∀ last ∈ path.getLast?, catalog.isSubtype last.target target

namespace Path

variable {catalog : Catalog} {source target : Ty} {path : Path}

theorem Linked.nil (below : catalog.isSubtype source target) : Linked catalog source [] target where
  stays _ := below
  starts := nofun
  meets := .nil
  ends := nofun

theorem Linked.cons {step : Step} (below : catalog.isSubtype source step.source)
    (linked : Linked catalog step.target path target) :
    Linked catalog source (step :: path) target where
  stays := nofun
  starts := by
    intro first member
    cases Option.mem_def.mp member
    exact below
  meets := List.isChain_cons.mpr ⟨linked.starts, linked.meets⟩
  ends := by
    -- The first step is the last one too where no other follows.
    cases path with
    | nil =>
      intro last member
      cases Option.mem_def.mp member
      exact linked.stays rfl
    | cons next rest =>
      rw [List.getLast?_cons_cons]
      exact linked.ends

theorem Leads.linked (leads : Leads catalog source path target) :
    Linked catalog source path target := by
  induction leads with
  | done below => exact .nil below
  | step below _ _ ih => exact .cons below ih

end Path

/-- A path that is found can be followed: it starts from the type asked for, each of its steps takes
    what the one before it gives, and the last one gives the type asked for. All of its steps are
    steps of the catalog, whatever supertypes it declares. -/
theorem Catalog.path?_linked {catalog : Catalog} {source target : Ty} {path : Path}
    (found : catalog.path? source target = some path) :
    Path.Linked catalog source path target ∧ ∀ step ∈ path, step.Offered catalog :=
  have leads := path?_leads found
  ⟨leads.linked, leads.offered⟩

def badge : Conversion :=
  ⟨"badge", .named "Visitor", .named "Badge", true, (·.member "badge")⟩

def passNumber : Conversion :=
  ⟨"pass_number", .named "Pass", .float64, true, (·.member "number")⟩

/-- Guests and visitors are declared to be each other, and a badge is a pass. -/
def admissions : Catalog :=
  let visitor : Declaration := {
    type := .named "Visitor"
    supertype := some (.named "Guest")
    conversions := [badge] }
  let guest : Declaration := { type := .named "Guest", supertype := some (.named "Visitor") }
  let badges : Declaration := {
    type := .named "Badge"
    supertype := some (.named "Pass")
    conversions := [passNumber] }
  ((Catalog.standard.declare visitor).declare guest).declare badges

/-- A visitor has the number of a pass: that of the badge. -/
theorem admissions_linked :
    admissions.path? (.named "Visitor") .float64 = some [.declared badge, .declared passNumber] ∧
    Path.Linked admissions (.named "Visitor") [.declared badge, .declared passNumber] .float64 ∧
    badge.target ≠ passNumber.source ∧
    admissions.isSubtype badge.target passNumber.source = true := by
  have found : admissions.path? (.named "Visitor") .float64 =
      some [.declared badge, .declared passNumber] := rfl
  have linked := (Catalog.path?_linked found).1
  exact ⟨found, linked, by decide, (List.isChain_cons_cons.mp linked.meets).1⟩

end Formulary
