import Formulary.Proofs.Catalog.Subtype
import Formulary.Proofs.Conversion.Chain

namespace Formulary

/-! Subtypes and the conversions of their supertypes. A search extends a path of a subtype at its
    end only, since conversions are looked up by the very type that they start from. So a subtype
    has the conversions that can be put together from their ends: declared ones, each of which
    starts where the one before it ends, up to the target itself. -/

namespace Path

variable {catalog : Catalog} {source target : Ty} {path : Path}

/-- The path is one of declared conversions, of which each starts at the very type at which the
    one before it ends, and the last ends at the target. -/
def Joined (path : Path) (target : Ty) : Prop :=
  ∃ conversions : List Conversion, path = conversions.map .declared ∧
    (conversions.IsChain fun conversion next => conversion.target = next.source) ∧
    ∀ last ∈ conversions.getLast?, last.target = target

theorem Leads.offered (leads : Leads catalog source path target) :
    ∀ step ∈ path, step.Offered catalog := by
  induction leads with
  | done _ => exact fun _ member => nomatch member
  | step _ offered _ ih =>
    intro step member
    rcases List.mem_cons.mp member with rfl | member
    · exact offered
    · exact ih step member

/-- A path is extended at its end, or replaced by a cast between machine numbers. -/
theorem Extended.exists_concat {conversion : Conversion}
    (listed : conversion ∈ catalog.conversions)
    (extended : Extended catalog source path conversion.source) :
    ∃ longer, Extended catalog source longer conversion.target ∧
      longer.length ≤ path.length + 1 := by
  by_cases numbers :
      (source.isPrimitiveNumeric && conversion.target.isPrimitiveNumeric) = true
  · by_cases below : catalog.isSubtype source conversion.target = true
    · exact ⟨[], .same below, by simp⟩
    · exact ⟨_, .cast below numbers, by simp⟩
  · exact ⟨_, .last listed numbers extended, by simp⟩

theorem Extended.exists_joined {conversion last : Conversion} {conversions : List Conversion}
    (listed : ∀ other ∈ conversion :: conversions, other ∈ catalog.conversions)
    (chain : (conversion :: conversions).IsChain fun earlier later => earlier.target = later.source)
    (ends : last ∈ (conversion :: conversions).getLast?)
    (extended : Extended catalog source path conversion.source) :
    ∃ longer, Extended catalog source longer last.target ∧
      longer.length ≤ path.length + (conversions.length + 1) := by
  induction conversions generalizing conversion path with
  | nil =>
    cases Option.mem_def.mp ends
    exact extended.exists_concat (listed conversion List.mem_cons_self)
  | cons next rest ih =>
    obtain ⟨longer, reaches, short⟩ :=
      extended.exists_concat (listed conversion List.mem_cons_self)
    have linked := List.isChain_cons_cons.mp chain
    rw [linked.1] at reaches
    obtain ⟨whole, found, bound⟩ := ih (fun other member =>
      listed other (List.mem_cons_of_mem _ member)) linked.2 (by simpa using ends) reaches
    exact ⟨whole, found, by simp only [List.length_cons]; omega⟩

end Path

variable {catalog : Catalog} {lower upper target : Ty} {path : Path}

/-- A subtype is converted to whatever its supertype is converted to by a path of declared
    conversions that meet each other and the target, and in no more steps. -/
theorem Catalog.path?_inherited (below : catalog.isSubtype lower upper)
    (found : catalog.path? upper target = some path) (joined : path.Joined target) :
    ∃ inherited, catalog.path? lower target = some inherited ∧
      inherited.length ≤ path.length := by
  have leads := path?_leads found
  obtain ⟨conversions, rfl, chain, ends⟩ := joined
  have extended : ∃ longer, Path.Extended catalog lower longer target ∧
      longer.length ≤ (conversions.map Step.declared).length := by
    cases conversions with
    | nil =>
      cases leads with
      | done above => exact ⟨[], .same (isSubtype_trans below above), by simp⟩
    | cons conversion rest =>
      have listed : ∀ other ∈ conversion :: rest, other ∈ catalog.conversions := by
        intro other member
        cases leads.offered (.declared other) (List.mem_map_of_mem member) with
        | declared listed => exact listed
      have final := List.getLast?_eq_some_getLast (List.cons_ne_nil conversion rest)
      cases leads with
      | step above _ _ =>
        have start : Path.Extended catalog lower [] conversion.source :=
          .same (isSubtype_trans below above)
        obtain ⟨longer, reaches, short⟩ := start.exists_joined listed chain final
        rw [ends _ final] at reaches
        exact ⟨longer, reaches, by simpa using short⟩
  obtain ⟨longer, reaches, short⟩ := extended
  obtain ⟨inherited, searched, -, cheaper⟩ := path?_le reaches
  exact ⟨inherited, searched, (Path.length_le_of_cost_le cheaper).trans short⟩

def bounds : Conversion :=
  ⟨"bounds", .named "Shape", .named "Box", true, (·.member "bounds")⟩

def corner : Conversion :=
  ⟨"corner", .named "Box", .named "Point", false, (·.member "corner")⟩

/-- Circles are shapes and boxes are polygons. A shape has an area and a box around it, and a box
    has a corner. -/
def shapes : Catalog :=
  let area : Conversion := ⟨"area", .named "Shape", .float64, true, (·.member "area")⟩
  ((Catalog.standard.declare { type := .named "Shape", conversions := [area, bounds] }).declare
    { type := .named "Box", supertype := some (.named "Polygon"), conversions := [corner] }).declare
      { type := .named "Circle", supertype := some (.named "Shape") }

/-- A circle has the corner of the box around it. -/
theorem shapes_inherited :
    shapes.isSubtype (.named "Circle") (.named "Shape") ∧
    shapes.path? (.named "Shape") (.named "Point") = some [.declared bounds, .declared corner] ∧
    Path.Joined [.declared bounds, .declared corner] (.named "Point") ∧
    ∃ inherited, shapes.path? (.named "Circle") (.named "Point") = some inherited ∧
      inherited.length ≤ 2 := by
  have below : shapes.isSubtype (.named "Circle") (.named "Shape") = true := by decide +kernel
  have found : shapes.path? (.named "Shape") (.named "Point") =
      some [.declared bounds, .declared corner] := rfl
  have joined : Path.Joined [.declared bounds, .declared corner] (.named "Point") :=
    ⟨[bounds, corner], rfl, by simp [bounds, corner], by simp [corner]⟩
  exact ⟨below, found, joined, Catalog.path?_inherited below found joined⟩

/-- A circle is not converted to what a shape is converted to by a cast at the end, and not to
    what a box is only as a polygon. -/
theorem shapes_not_inherited :
    shapes.isSubtype (.named "Circle") (.named "Shape") = true ∧
    shapes.converts (.named "Shape") .float32 = true ∧
    shapes.converts (.named "Circle") .float32 = false ∧
    shapes.converts (.named "Shape") (.named "Polygon") = true ∧
    shapes.converts (.named "Circle") (.named "Polygon") = false := by
  decide +kernel

end Formulary
