import Mathlib.Data.Finset.Card
import Mathlib.Data.Nat.Find
import Formulary.Catalog.Basic

namespace Formulary.Catalog

/-! Subtypes, for declarations of any kind: supertypes may be missing, and chains of them may run
    in circles. The bound on the steps of a chain cuts none short, since a chain without
    repetition meets a declaration at each step. -/

variable {catalog : Catalog} {lower middle upper : Ty}

/-- The type that is so many supertypes up. -/
def climb (catalog : Catalog) : Nat → Ty → Option Ty
  | 0, type => some type
  | steps + 1, type => (catalog.supertype? type).bind (climb catalog steps)

theorem climb_add (first second : Nat) (type : Ty) :
    catalog.climb (first + second) type =
      (catalog.climb first type).bind (catalog.climb second) := by
  induction first generalizing type with
  | zero => simp [climb]
  | succ first ih =>
    rw [Nat.succ_add, climb, climb, Option.bind_assoc]
    exact congrArg _ (funext ih)

theorem reaches_iff {steps : Nat} :
    catalog.reaches upper steps lower = true ↔
      ∃ count ≤ steps, catalog.climb count lower = some upper := by
  induction steps generalizing lower with
  | zero => simp [reaches, climb]
  | succ steps ih =>
    rw [reaches, Bool.or_eq_true, beq_iff_eq]
    constructor
    · rintro (rfl | above)
      · exact ⟨0, Nat.zero_le _, rfl⟩
      · cases parent : catalog.supertype? lower with
        | none => simp [parent] at above
        | some type =>
          obtain ⟨count, few, climbed⟩ := ih.mp (by simpa [parent] using above)
          exact ⟨count + 1, Nat.succ_le_succ few, by rw [climb, parent]; exact climbed⟩
    · rintro ⟨_ | count, few, climbed⟩
      · exact .inl (Option.some.inj climbed)
      · rw [climb] at climbed
        obtain ⟨type, parent, climbed⟩ := Option.bind_eq_some_iff.mp climbed
        rw [parent]
        exact .inr (ih.mpr ⟨count, Nat.le_of_succ_le_succ few, climbed⟩)

theorem mem_types_of_find? {type : Ty} {declaration : Declaration}
    (found : catalog.find? type = some declaration) :
    type ∈ catalog.declarations.map (·.type) := by
  have listed := List.mem_of_find?_eq_some found
  have named : declaration.type = type := by simpa using List.find?_some found
  exact List.mem_map.mpr ⟨declaration, listed, named⟩

theorem mem_types_of_supertype? {type parent : Ty} (above : catalog.supertype? type = some parent) :
    type ∈ catalog.declarations.map (·.type) := by
  obtain ⟨declaration, found, -⟩ := Option.bind_eq_some_iff.mp above
  exact mem_types_of_find? found

section Fewest

variable {count : Nat} (climbed : catalog.climb count lower = some upper)

include climbed

theorem exists_of_climb {index : Nat} (below : index ≤ count) :
    ∃ type, catalog.climb index lower = some type ∧
      catalog.climb (count - index) type = some upper := by
  rw [← Nat.add_sub_cancel' below, climb_add] at climbed
  exact Option.bind_eq_some_iff.mp climbed

variable (least : ∀ fewer < count, catalog.climb fewer lower ≠ some upper)

include least

/-- No type is met twice on the way, or the way from the first time on were shorter. -/
theorem climb_injOn : Set.InjOn (catalog.climb · lower) (Finset.range (count + 1)) := by
  have forward : ∀ {index later}, index < later → later ≤ count →
      catalog.climb index lower ≠ catalog.climb later lower := by
    intro index later before below same
    obtain ⟨type, reached, rest⟩ := exists_of_climb climbed below
    refine least (index + (count - later)) (by omega) ?_
    rw [climb_add, same, reached]
    exact rest
  intro index below index' below' same
  have below := Nat.le_of_lt_succ (Finset.mem_range.mp below)
  have below' := Nat.le_of_lt_succ (Finset.mem_range.mp below')
  rcases Nat.lt_trichotomy index index' with before | equal | after
  · exact absurd same (forward before below')
  · exact equal
  · exact absurd same.symm (forward after below)

/-- The fewest steps up to a declared type are fewer than there are declarations. -/
theorem climb_lt (known : upper ∈ catalog.declarations.map (·.type)) :
    count < catalog.declarations.length := by
  let types := (catalog.declarations.map fun declaration => some declaration.type).toFinset
  have declared : Set.MapsTo (catalog.climb · lower) (Finset.range (count + 1)) types := by
    intro index below
    obtain ⟨type, reached, rest⟩ :=
      exists_of_climb climbed (Nat.le_of_lt_succ (Finset.mem_range.mp below))
    have listed : type ∈ catalog.declarations.map (·.type) := by
      cases more : count - index with
      | zero =>
        rw [more] at rest
        exact Option.some.inj rest ▸ known
      | succ more' =>
        rw [more, climb] at rest
        obtain ⟨parent, above, -⟩ := Option.bind_eq_some_iff.mp rest
        exact mem_types_of_supertype? above
    simpa [types, reached] using List.mem_map.mp listed
  calc count + 1 = (Finset.range (count + 1)).card := (Finset.card_range _).symm
    _ ≤ types.card := Finset.card_le_card_of_injOn _ declared (climb_injOn climbed least)
    _ ≤ (catalog.declarations.map fun declaration => some declaration.type).length :=
        List.toFinset_card_le _
    _ = catalog.declarations.length := List.length_map _

end Fewest

theorem climb_le {count : Nat} (climbed : catalog.climb count lower = some upper)
    (least : ∀ fewer < count, catalog.climb fewer lower ≠ some upper) :
    count ≤ catalog.declarations.length := by
  cases count with
  | zero => exact Nat.zero_le _
  | succ count =>
    -- The type before the last step is declared, and it is not reached earlier either.
    rw [climb_add] at climbed
    obtain ⟨middle, first, last⟩ := Option.bind_eq_some_iff.mp climbed
    obtain ⟨parent, above, -⟩ := Option.bind_eq_some_iff.mp last
    refine climb_lt first (fun fewer below early => least (fewer + 1) (by omega) ?_)
      (mem_types_of_supertype? above)
    rw [climb_add, early]
    exact last

theorem isSubtype_iff :
    catalog.isSubtype lower upper = true ↔ ∃ count, catalog.climb count lower = some upper := by
  rw [isSubtype, reaches_iff]
  constructor
  · rintro ⟨count, -, climbed⟩
    exact ⟨count, climbed⟩
  · intro above
    exact ⟨Nat.find above, climb_le (Nat.find_spec above) fun fewer => Nat.find_min above,
      Nat.find_spec above⟩

/-! The first of the types above one another at which there is something to find. -/

section Found

variable {α : Type} {stop : Ty → Option α} {found : α} {type : Ty}

/-- What there is to find so many supertypes up. -/
def foundAt? (catalog : Catalog) (stop : Ty → Option α) (type : Ty) (count : Nat) : Option α :=
  (catalog.climb count type).bind stop

theorem foundAt?_succ (count : Nat) :
    catalog.foundAt? stop type (count + 1) =
      (catalog.supertype? type).bind (catalog.foundAt? stop · count) := by
  rw [foundAt?, climb, Option.bind_assoc]
  rfl

/-- It is found so many supertypes up, and nothing before. -/
def FirstAt (catalog : Catalog) (stop : Ty → Option α) (found : α) (type : Ty) (count : Nat) : Prop :=
  catalog.foundAt? stop type count = some found ∧
    ∀ fewer < count, catalog.foundAt? stop type fewer = none

theorem firstAt_zero : catalog.FirstAt stop found type 0 ↔ stop type = some found := by
  have here : catalog.foundAt? stop type 0 = stop type := rfl
  simp [FirstAt, here]

theorem firstAt_succ {count : Nat} :
    catalog.FirstAt stop found type (count + 1) ↔
      stop type = none ∧
        ∃ parent, catalog.supertype? type = some parent ∧ catalog.FirstAt stop found parent count := by
  constructor
  · rintro ⟨reached, before⟩
    rw [foundAt?_succ] at reached
    obtain ⟨parent, above, reached⟩ := Option.bind_eq_some_iff.mp reached
    refine ⟨before 0 (Nat.succ_pos _), parent, above, reached, fun fewer below => ?_⟩
    have earlier := before (fewer + 1) (Nat.succ_lt_succ below)
    rwa [foundAt?_succ, above] at earlier
  · rintro ⟨nothing, parent, above, reached, before⟩
    refine ⟨by rw [foundAt?_succ, above]; exact reached, ?_⟩
    rintro (_ | fewer) below
    · exact nothing
    · rw [foundAt?_succ, above]
      exact before fewer (Nat.lt_of_succ_lt_succ below)

/-- The declared types that a walk has not met yet. -/
def unseen (catalog : Catalog) (seen : List Ty) : List Ty :=
  (catalog.declarations.map (·.type)).filter (· ∉ seen)

theorem length_unseen_lt {seen : List Ty} (known : type ∈ catalog.declarations.map (·.type))
    (fresh : type ∉ seen) :
    (catalog.unseen (type :: seen)).length < (catalog.unseen seen).length := by
  have fewer : catalog.unseen (type :: seen) = (catalog.unseen seen).filter (· ≠ type) := by
    simp [unseen, List.filter_filter, not_or]
  rw [fewer, List.length_filter_lt_length_iff_exists]
  exact ⟨type, List.mem_filter.mpr ⟨known, by simpa using fresh⟩, by simp⟩

/-- A walk up that has no bound. It remembers the types that it has met, and gives up where it
    meets one of them again. -/
def walk (catalog : Catalog) (stop : Ty → Option α) (seen : List Ty) (current : Ty) : Option α :=
  if current ∈ seen then none
  else
    match stop current with
    | some found => some found
    | none =>
      match _ : catalog.supertype? current with
      | some parent => walk catalog stop (current :: seen) parent
      | none => none
termination_by (catalog.unseen seen).length
decreasing_by exact length_unseen_lt (mem_types_of_supertype? ‹_›) ‹_›

theorem walk_eq_some {seen : List Ty} :
    catalog.walk stop seen type = some found ↔
      ∃ count, catalog.FirstAt stop found type count ∧
        ∀ fewer ≤ count, ∀ passed, catalog.climb fewer type = some passed → passed ∉ seen := by
  fun_induction walk catalog stop seen type with
  | case1 seen type met =>
    exact ⟨nofun, fun ⟨count, _, fresh⟩ => absurd met (fresh 0 count.zero_le type rfl)⟩
  | case2 seen type fresh result stops =>
    constructor
    · rintro ⟨⟩
      refine ⟨0, firstAt_zero.mpr stops, ?_⟩
      rintro _ ⟨⟩ passed reached
      exact Option.some.inj reached ▸ fresh
    · rintro ⟨_ | count, first, -⟩
      · exact stops.symm.trans (firstAt_zero.mp first)
      · exact absurd (stops.symm.trans (firstAt_succ.mp first).1) nofun
  | case3 seen type fresh nothing parent above ih =>
    have up : ∀ count, catalog.climb (count + 1) type = catalog.climb count parent :=
      fun count => by rw [climb, above, Option.bind_some]
    refine ih.trans ?_
    constructor
    · rintro ⟨count, first, unmet⟩
      refine ⟨count + 1, firstAt_succ.mpr ⟨nothing, parent, above, first⟩, ?_⟩
      rintro (_ | fewer) few passed reached
      · exact Option.some.inj reached ▸ fresh
      · exact fun met => unmet fewer (by omega) passed ((up fewer).symm.trans reached)
          (.tail _ met)
    · rintro ⟨_ | count, first, unmet⟩
      · exact absurd (nothing.symm.trans (firstAt_zero.mp first)) nofun
      · obtain ⟨-, parent', above', fromParent⟩ := firstAt_succ.mp first
        obtain rfl : parent = parent' := Option.some.inj (above.symm.trans above')
        refine ⟨count, fromParent, fun fewer few passed reached met => ?_⟩
        have reached := (up fewer).trans reached
        cases met with
        | head =>
          -- Back at the start, the rest of the way would have been enough.
          have rest : catalog.climb (count + 1) type = catalog.climb (count - fewer) type := by
            have split : count + 1 = fewer + 1 + (count - fewer) := by omega
            rw [split, climb_add, reached, Option.bind_some]
          have early := first.2 (count - fewer) (by omega)
          rw [foundAt?, ← rest, ← foundAt?, first.1] at early
          cases early
        | tail _ met => exact unmet (fewer + 1) (by omega) passed reached met
  | case4 seen type fresh nothing top =>
    refine ⟨nofun, ?_⟩
    rintro ⟨_ | count, first, -⟩
    · exact absurd (nothing.symm.trans (firstAt_zero.mp first)) nofun
    · obtain ⟨-, parent, above, -⟩ := firstAt_succ.mp first
      exact absurd (top.symm.trans above) nofun

theorem walk_nil_eq_some :
    catalog.walk stop [] type = some found ↔ ∃ count, catalog.FirstAt stop found type count := by
  rw [walk_eq_some]
  exact ⟨fun ⟨count, first, _⟩ => ⟨count, first⟩, fun ⟨count, first⟩ => ⟨count, first, nofun⟩⟩

end Found

/-- The bounded walk meets the type that the one that remembers its way meets. -/
theorem isSubtype_eq_walk (catalog : Catalog) (lower upper : Ty) :
    catalog.isSubtype lower upper =
      (catalog.walk (fun type => if type = upper then some () else none) [] lower).isSome := by
  rw [Bool.eq_iff_iff, isSubtype_iff, Option.isSome_iff_exists]
  simp only [walk_nil_eq_some, FirstAt, foundAt?]
  constructor
  · intro above
    refine ⟨(), Nat.find above, by rw [Nat.find_spec above]; simp, fun fewer few => ?_⟩
    have other := Nat.find_min above few
    cases reached : catalog.climb fewer lower with
    | none => rfl
    | some type => exact if_neg fun same => other (reached.trans (congrArg some same))
  · rintro ⟨_, count, met, -⟩
    obtain ⟨type, climbed, met⟩ := Option.bind_eq_some_iff.mp met
    exact ⟨count, climbed.trans (congrArg some (Option.ite_none_right_eq_some.mp met).1)⟩

theorem isSubtype_trans (below : catalog.isSubtype lower middle)
    (above : catalog.isSubtype middle upper) : catalog.isSubtype lower upper := by
  obtain ⟨first, climbed⟩ := isSubtype_iff.mp below
  obtain ⟨second, further⟩ := isSubtype_iff.mp above
  exact isSubtype_iff.mpr ⟨first + second, by rw [climb_add, climbed]; exact further⟩

end Formulary.Catalog
