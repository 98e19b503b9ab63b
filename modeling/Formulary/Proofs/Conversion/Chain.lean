import Mathlib.Data.List.Chain
import Formulary.Catalog.Standard
import Formulary.Proofs.Conversion.Optimal

namespace Formulary

/-! Chains of conversion steps. A step is a declared conversion, a cast between machine numbers or
    a conversion between numbers and truth values, and of two neighbouring steps one is declared.
    The search joins a single step without declaration with declared ones on both sides of it, and
    still finds the cheapest chain: chains with more of them lead from numbers and truth values to
    numbers and truth values, where shorter ones are known. -/

def Step.isDeclared : Step → Bool
  | declared _ => true
  | _ => false

namespace Path

/-- Each step starts at the very type at which the one before it ends. -/
def Links : Path → Ty → Ty → Prop
  | [], source, target => source = target
  | step :: rest, source, target => source = step.source ∧ Links rest step.target target

theorem links_append {path rest : Path} {source target : Ty} :
    Links (path ++ rest) source target ↔
      ∃ middle, path.Links source middle ∧ rest.Links middle target := by
  induction path generalizing source with
  | nil => simp [Links]
  | cons step path ih =>
    simp only [List.cons_append, Links, ih]
    constructor
    · rintro ⟨starts, middle, left, right⟩
      exact ⟨middle, ⟨starts, left⟩, right⟩
    · rintro ⟨middle, ⟨starts, left⟩, right⟩
      exact ⟨starts, middle, left, right⟩

/-- A chain of steps from one type to another. -/
structure Chain (catalog : Catalog) (source : Ty) (path : Path) (target : Ty) : Prop where
  links : path.Links source target
  offered : ∀ step ∈ path, step.Offered catalog
  moves : ∀ type, Step.cast type type ∉ path
  alternates : path.IsChain fun step next => step.isDeclared ∨ next.isDeclared

variable {catalog : Catalog} {source target : Ty} {path : Path}

theorem Chain.single (step : Step) (offered : step.Offered catalog)
    (moves : ∀ type, step ≠ .cast type type) : Chain catalog step.source [step] step.target where
  links := ⟨rfl, rfl⟩
  offered := by simpa using offered
  moves := by simpa [eq_comm] using moves
  alternates := .singleton step

theorem Chain.cons {conversion : Conversion} {rest : Path}
    (listed : conversion ∈ catalog.conversions)
    (chain : Chain catalog conversion.target rest target) :
    Chain catalog conversion.source (.declared conversion :: rest) target where
  links := ⟨rfl, chain.links⟩
  offered := by
    simp only [List.mem_cons, forall_eq_or_imp]
    exact ⟨.declared listed, chain.offered⟩
  moves := by
    intro type
    simp [chain.moves type]
  alternates := List.isChain_cons.mpr ⟨fun _ _ => .inl rfl, chain.alternates⟩

theorem Chain.concat {conversion : Conversion} (listed : conversion ∈ catalog.conversions)
    (chain : Chain catalog source path conversion.source) :
    Chain catalog source (path ++ [.declared conversion]) conversion.target where
  links := links_append.mpr ⟨_, chain.links, rfl, rfl⟩
  offered := by
    simp only [List.mem_append, List.mem_singleton]
    rintro step (member | rfl)
    · exact chain.offered step member
    · exact .declared listed
  moves := by
    intro type
    simp [chain.moves type]
  alternates := by
    refine chain.alternates.append (.singleton _) fun _ _ next member => .inr ?_
    cases Option.mem_def.mp member
    rfl

/-- What is left of a chain without its first step is one, and so is what is left without its
    last step. -/
theorem Chain.of_append {rest : Path} (chain : Chain catalog source (path ++ rest) target) :
    ∃ middle, Chain catalog source path middle ∧ Chain catalog middle rest target := by
  obtain ⟨middle, left, right⟩ := links_append.mp chain.links
  have alternates := List.isChain_append.mp chain.alternates
  refine ⟨middle, ⟨left, fun step member => ?_, fun type member => ?_, alternates.1⟩,
    ⟨right, fun step member => ?_, fun type member => ?_, alternates.2.1⟩⟩
  · exact chain.offered step (List.mem_append_left _ member)
  · exact chain.moves type (List.mem_append_left _ member)
  · exact chain.offered step (List.mem_append_right _ member)
  · exact chain.moves type (List.mem_append_right _ member)

/-- Without supertypes, what a search can come to is a chain. -/
theorem Extended.chain (flat : catalog.Flat) (extended : Extended catalog source path target) :
    Chain catalog source path target := by
  induction extended with
  | same below =>
    cases flat.eq_of_isSubtype below
    exact ⟨rfl, by simp, by simp, .nil⟩
  | @cast source target apart numbers =>
    obtain ⟨fromNumber, toNumber⟩ := Bool.and_eq_true_iff.mp numbers
    refine .single (.cast source target) (.cast fromNumber toNumber) fun type same => ?_
    cases same
    exact apart (Catalog.isSubtype_self _)
  | @truth source target path found =>
    unfold Catalog.truthPath? at found
    split at found
    · rename_i truth
      obtain ⟨toTruth, number⟩ := Bool.and_eq_true_iff.mp truth
      cases found
      cases beq_iff_eq.mp toTruth
      exact .single (.nonzero source) (.nonzero number) nofun
    · split at found
      · rename_i truth
        obtain ⟨fromTruth, number⟩ := Bool.and_eq_true_iff.mp truth
        cases found
        cases beq_iff_eq.mp fromTruth
        exact .single (.select target) (.select number) nofun
      · cases found
  | first listed _ _ ih => exact .cons listed ih
  | last listed _ _ ih => exact .concat listed ih

end Path

/-- A type that a step without declaration can start from or lead to. -/
def Ty.Plain (type : Ty) : Prop := type = .bool ∨ type.isNumeric = true

theorem Ty.Plain.of_isPrimitiveNumeric {type : Ty} (number : type.isPrimitiveNumeric) :
    type.Plain := by
  cases type <;> simp_all [Plain, Ty.isPrimitiveNumeric, Ty.isNumeric]

theorem Step.declared_or_plain {catalog : Catalog} (step : Step) (offered : step.Offered catalog) :
    (∃ conversion ∈ catalog.conversions, step = .declared conversion) ∨
      step.isDeclared = false ∧ step.source.Plain ∧ step.target.Plain := by
  cases offered with
  | cast fromNumber toNumber =>
    exact .inr ⟨rfl, .of_isPrimitiveNumeric fromNumber, .of_isPrimitiveNumeric toNumber⟩
  | declared listed => exact .inl ⟨_, listed, rfl⟩
  | nonzero number => exact .inr ⟨rfl, .inr number, .inl rfl⟩
  | select number => exact .inr ⟨rfl, .inl rfl, .inr number⟩

namespace Catalog

/-- Decimals are declared as in the standard catalog. -/
def KeepsDecimals (catalog : Catalog) : Prop := standard.declarations ⊆ catalog.declarations

/-- Machine numbers are converted to each other by casts only. -/
def CastsNumbers (catalog : Catalog) : Prop :=
  ∀ conversion ∈ catalog.conversions,
    ¬ (conversion.source.isPrimitiveNumeric && conversion.target.isPrimitiveNumeric)

variable {catalog : Catalog} {source target : Ty} {path : Path}

theorem KeepsDecimals.listed (keeps : catalog.KeepsDecimals) {conversion : Conversion}
    (declared : conversion ∈ standard.conversions) : conversion ∈ catalog.conversions := by
  obtain ⟨declaration, member, listed⟩ := List.mem_flatMap.mp declared
  exact List.mem_flatMap.mpr ⟨declaration, keeps member, listed⟩

theorem conversions_standard : standard.conversions =
    [int32ToDecimal, int64ToDecimal, float64ToDecimal, decimalToFloat64, decimalToInt64] := rfl

/-- Two steps are enough between numbers and truth values. -/
theorem exists_short (keeps : catalog.KeepsDecimals) (flat : catalog.Flat)
    (fromPlain : source.Plain) (toPlain : target.Plain) :
    ∃ path, Path.Extended catalog source path target ∧ path.length ≤ 2 := by
  have unrelated : ∀ {lower upper : Ty}, lower ≠ upper → ¬ catalog.isSubtype lower upper :=
    fun different below => different (flat.eq_of_isSubtype below)
  have listed : ∀ conversion ∈ standard.conversions, conversion ∈ catalog.conversions :=
    fun _ => keeps.listed
  have one : ∀ conversion ∈ standard.conversions,
      ∃ path, Path.Extended catalog conversion.source path conversion.target ∧
        path.length ≤ 2 := by
    intro conversion declared
    refine ⟨_, .first (listed conversion declared) ?_ (.same (isSubtype_self _)), by simp⟩
    simp only [conversions_standard, List.mem_cons, List.not_mem_nil, or_false] at declared
    rcases declared with rfl | rfl | rfl | rfl | rfl <;> decide
  by_cases same : source = target
  · exact ⟨[], .same (same ▸ isSubtype_self _), by simp⟩
  by_cases numbers : (source.isPrimitiveNumeric && target.isPrimitiveNumeric) = true
  · exact ⟨_, .cast (unrelated same) numbers, by simp⟩
  rcases fromPlain with rfl | fromNumber
  · have toNumber : target.isNumeric = true := toPlain.resolve_left (Ne.symm same)
    exact ⟨[.select target], .truth (by cases target <;> simp_all [truthPath?]), by simp⟩
  rcases toPlain with rfl | toNumber
  · exact ⟨[.nonzero source], .truth (by simp [truthPath?, fromNumber]), by simp⟩
  have decimals : source = .decimal ∨ target = .decimal := by
    cases source <;> cases target <;> simp_all [Ty.isPrimitiveNumeric, Ty.isNumeric]
  rcases decimals with rfl | rfl
  · cases target with
    | int32 =>
      exact ⟨_, .first (listed decimalToInt64 (by simp [conversions_standard])) (by decide)
        (.cast (unrelated (by decide)) rfl), by simp⟩
    | int64 => exact one decimalToInt64 (by simp [conversions_standard])
    | float32 =>
      exact ⟨_, .first (listed decimalToFloat64 (by simp [conversions_standard])) (by decide)
        (.cast (unrelated (by decide)) rfl), by simp⟩
    | float64 => exact one decimalToFloat64 (by simp [conversions_standard])
    | decimal => exact absurd rfl same
    | bool | text | named _ => cases toNumber
  · cases source with
    | int32 => exact one int32ToDecimal (by simp [conversions_standard])
    | int64 => exact one int64ToDecimal (by simp [conversions_standard])
    | float32 =>
      exact ⟨_, .last (listed float64ToDecimal (by simp [conversions_standard])) (by decide)
        (.cast (unrelated (by decide)) rfl), by simp⟩
    | float64 => exact one float64ToDecimal (by simp [conversions_standard])
    | decimal => exact absurd rfl same
    | bool | text | named _ => cases fromNumber

end Catalog

namespace Path

variable {catalog : Catalog} {source target : Ty} {path : Path}

/-- Between machine numbers the cast is the only chain of one step. -/
theorem Chain.exists_of_numbers (flat : catalog.Flat) (casts : catalog.CastsNumbers)
    (numbers : source.isPrimitiveNumeric && target.isPrimitiveNumeric)
    (chain : Chain catalog source path target) :
    ∃ other, Extended catalog source other target ∧ other.cost ≤ path.cost := by
  by_cases same : source = target
  · exact ⟨[], .same (same ▸ Catalog.isSubtype_self _), path.cost_nil_le⟩
  refine ⟨_, .cast (fun below => same (flat.eq_of_isSubtype below)) numbers, ?_⟩
  match path, chain with
  | [], chain => exact absurd chain.links same
  | [step], chain =>
    obtain ⟨rfl, rfl⟩ := chain.links
    cases chain.offered step List.mem_cons_self with
    | cast _ _ => exact le_refl _
    | declared listed => exact absurd numbers (casts _ listed)
    | nonzero _ => simp [Step.target, Ty.isPrimitiveNumeric] at numbers
    | select _ => simp [Step.source, Ty.isPrimitiveNumeric] at numbers
  | _ :: _ :: _, _ => exact (cost_lt_of_length_lt (by simp)).le

theorem Chain.extended_single {step : Step}
    (others : ¬ (source.isPrimitiveNumeric && target.isPrimitiveNumeric) = true)
    (chain : Chain catalog source [step] target) : Extended catalog source [step] target := by
  obtain ⟨rfl, rfl⟩ := chain.links
  cases chain.offered step List.mem_cons_self with
  | cast fromNumber toNumber => simp [Step.source, Step.target, fromNumber, toNumber] at others
  | declared listed => exact .first listed others (.same (Catalog.isSubtype_self _))
  | nonzero number =>
    exact .truth (by simp [Catalog.truthPath?, Step.source, Step.target, number])
  | @select target number =>
    refine .truth ?_
    cases target <;> simp_all [Catalog.truthPath?, Step.source, Step.target, Ty.isNumeric]

/-- No chain is cheaper than what a search can come to. A chain of several steps that neither starts
    nor ends with a declared conversion has at least three, and two are enough between its ends. -/
theorem Chain.exists_extended (keeps : catalog.KeepsDecimals) (flat : catalog.Flat)
    (casts : catalog.CastsNumbers) (chain : Chain catalog source path target) :
    ∃ other, Extended catalog source other target ∧ other.cost ≤ path.cost := by
  induction size : path.length using Nat.strong_induction_on
    generalizing source target path with
  | h size' ih =>
    subst size
    by_cases numbers : (source.isPrimitiveNumeric && target.isPrimitiveNumeric) = true
    · exact chain.exists_of_numbers flat casts numbers
    rcases path with _ | ⟨step, rest⟩
    · exact ⟨[], .same (chain.links ▸ Catalog.isSubtype_self _), le_refl _⟩
    obtain ⟨middle, first, later⟩ :=
      Chain.of_append (show Chain catalog source ([step] ++ rest) target from chain)
    obtain ⟨rfl, rfl⟩ := first.links
    rcases step.declared_or_plain (first.offered step List.mem_cons_self) with
      ⟨conversion, listed, rfl⟩ | ⟨undeclared, fromPlain, -⟩
    · obtain ⟨other, extended, below⟩ := ih _ (by simp) later rfl
      exact ⟨_, .first listed numbers extended, cost_cons_le _ below⟩
    rcases List.eq_nil_or_concat rest with rfl | ⟨init, last, rfl⟩
    · exact ⟨[step], chain.extended_single numbers, le_refl _⟩
    obtain ⟨middle, earlier, final⟩ :=
      Chain.of_append (show Chain catalog step.source ((step :: init) ++ [last]) target by
        simpa using chain)
    obtain ⟨rfl, rfl⟩ := final.links
    rcases last.declared_or_plain (final.offered last List.mem_cons_self) with
      ⟨conversion, listed, rfl⟩ | ⟨undeclared', -, toPlain⟩
    · obtain ⟨other, extended, below⟩ := ih _ (by simp) earlier rfl
      refine ⟨_, .last listed numbers extended, ?_⟩
      simpa using cost_concat_le (.declared conversion) below
    · obtain ⟨other, extended, short⟩ := Catalog.exists_short keeps flat fromPlain toPlain
      have long : init ≠ [] := by
        rintro rfl
        have neighbours := chain.alternates
        simp [undeclared, undeclared'] at neighbours
      have several := List.length_pos_iff.mpr long
      exact ⟨other, extended, (cost_lt_of_length_lt (by simp; omega)).le⟩

end Path

/-- The search for a path of conversions ends, finds one exactly where there is a chain, and finds
    a cheapest one: no chain is shorter, none of the same length has fewer explicit steps, and none
    of those loses less. -/
theorem Catalog.path?_cheapest (catalog : Catalog) (keeps : catalog.KeepsDecimals)
    (flat : catalog.Flat) (casts : catalog.CastsNumbers) (source target : Ty) :
    catalog.Searches [] source target (catalog.path? source target) ∧
    (catalog.path? source target = none ↔ ¬ ∃ path, Path.Chain catalog source path target) ∧
    ∀ path, catalog.path? source target = some path →
      Path.Chain catalog source path target ∧
        ∀ other, Path.Chain catalog source other target → path.cost ≤ other.cost := by
  have least : ∀ other, Path.Chain catalog source other target →
      ∃ best, catalog.path? source target = some best ∧ best.cost ≤ other.cost := by
    intro other chain
    obtain ⟨path, extended, below⟩ := chain.exists_extended keeps flat casts
    obtain ⟨best, found, -, less⟩ := path?_le extended
    exact ⟨best, found, less.trans below⟩
  have sound : ∀ path, catalog.path? source target = some path →
      Path.Chain catalog source path target :=
    fun path found => (searchWithin_extended found).chain flat
  refine ⟨catalog.path?_searches source target, ⟨?_, ?_⟩, fun path found => ⟨sound path found, ?_⟩⟩
  · rintro nothing ⟨other, chain⟩
    obtain ⟨best, found, -⟩ := least other chain
    rw [nothing] at found
    cases found
  · intro unconnected
    cases found : catalog.path? source target with
    | none => rfl
    | some path => exact absurd ⟨path, sound path found⟩ unconnected
  · intro other chain
    obtain ⟨best, same, below⟩ := least other chain
    rw [found] at same
    cases same
    exact below

/-- Two scales of temperature that are converted to each other; one of them is read as a
    decimal. -/
def temperatures : Catalog :=
  let celsius : Declaration := {
    type := .named "Celsius"
    conversions := [
      ⟨"celsius_to_kelvin", .named "Celsius", .named "Kelvin", true, .ok⟩,
      ⟨"celsius_to_decimal", .named "Celsius", .decimal, true, (·.member "degrees")⟩] }
  let kelvin : Declaration := {
    type := .named "Kelvin"
    conversions := [⟨"kelvin_to_celsius", .named "Kelvin", .named "Celsius", false, .ok⟩] }
  (Catalog.standard.declare celsius).declare kelvin

/-- The conversions of the scales form a cycle, which does not keep the search from its end. -/
theorem temperatures_cheapest :
    temperatures.KeepsDecimals ∧ temperatures.Flat ∧ temperatures.CastsNumbers ∧
    ∃ path, temperatures.path? (.named "Kelvin") .float32 = some path ∧
      path.text = "kelvin_to_celsius -> celsius_to_decimal -> decimal_to_f64 -> f64 as f32" ∧
      (∀ other, Path.Chain temperatures (.named "Kelvin") other .float32 → path.cost ≤ other.cost) ∧
      ¬ ∃ other, Path.Chain temperatures .float32 other (.named "Kelvin") := by
  have keeps : temperatures.KeepsDecimals := by
    intro declaration member
    simp only [Catalog.standard, List.mem_singleton] at member
    subst member
    simp [temperatures, Catalog.declare, Catalog.standard]
  have flat : temperatures.Flat := by
    intro declaration member
    simp [temperatures, Catalog.declare, Catalog.standard] at member
    rcases member with rfl | rfl | rfl <;> rfl
  have casts : temperatures.CastsNumbers := by
    have each : (temperatures.conversions.all fun conversion =>
        !(conversion.source.isPrimitiveNumeric && conversion.target.isPrimitiveNumeric)) = true := by
      decide
    intro conversion member
    have checked := List.all_eq_true.mp each conversion member
    rwa [Bool.not_eq_true', ← Bool.not_eq_true] at checked
  have found : (temperatures.path? (.named "Kelvin") .float32).map Path.text =
      some "kelvin_to_celsius -> celsius_to_decimal -> decimal_to_f64 -> f64 as f32" := by
    decide +kernel
  obtain ⟨path, found, text⟩ := Option.map_eq_some_iff.mp found
  have cheapest := Catalog.path?_cheapest temperatures keeps flat casts
  refine ⟨keeps, flat, casts, path, found, text, ((cheapest _ _).2.2 path found).2, ?_⟩
  exact (cheapest _ _).2.1.mp (by decide +kernel)

end Formulary
