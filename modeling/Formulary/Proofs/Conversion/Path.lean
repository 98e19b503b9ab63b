import Formulary.Conversion.Search
import Formulary.Evaluation.Machine

namespace Formulary

/-! Paths of conversions that are found by search: every step can be taken in the catalog, and
    leads to a type from which the next one starts. -/

/-- The step is one that a catalog offers. -/
inductive Step.Offered (catalog : Catalog) : Step → Prop
  | cast {source target : Ty} (fromNumber : source.isPrimitiveNumeric)
      (toNumber : target.isPrimitiveNumeric) : Offered catalog (.cast source target)
  | declared {conversion : Conversion} (listed : conversion ∈ catalog.conversions) :
      Offered catalog (.declared conversion)
  | nonzero {source : Ty} (number : source.isNumeric) : Offered catalog (.nonzero source)
  | select {target : Ty} (number : target.isNumeric) : Offered catalog (.select target)

/-- The path leads from one type to another. Between two steps, and at both ends, a type may be
    taken for one of its supertypes. -/
inductive Path.Leads (catalog : Catalog) : Ty → Path → Ty → Prop
  | done {source target : Ty} (below : catalog.isSubtype source target) :
      Leads catalog source [] target
  | step {source target : Ty} {step : Step} {rest : Path}
      (below : catalog.isSubtype source step.source) (offered : step.Offered catalog)
      (leads : Leads catalog step.target rest target) : Leads catalog source (step :: rest) target

namespace Catalog

variable {catalog : Catalog}

theorem reaches_self (type : Ty) (steps : Nat) : catalog.reaches type steps type = true := by
  cases steps <;> simp [reaches]

theorem isSubtype_self (type : Ty) : catalog.isSubtype type type = true := reaches_self type _

end Catalog

namespace Path

variable {catalog : Catalog} {source target : Ty}

theorem Leads.single (step : Step) (offered : step.Offered catalog) :
    Leads catalog step.source [step] step.target :=
  .step (Catalog.isSubtype_self _) offered (.done (Catalog.isSubtype_self _))

theorem Leads.append {path : Path} {step : Step} (leads : Leads catalog source path step.source)
    (offered : step.Offered catalog) : Leads catalog source (path ++ [step]) step.target := by
  generalize middle : step.source = type at leads
  induction leads with
  | done below =>
    subst middle
    exact .step below offered (.done (Catalog.isSubtype_self _))
  | step below first _ ih => exact .step below first (ih middle)

theorem mem_of_cheaper {best candidate : Option Path} {path : Path}
    (found : cheaper best candidate = some path) : best = some path ∨ candidate = some path := by
  unfold cheaper at found
  split at found
  · split at found
    · exact .inl found
    · exact .inr found
  · exact .inl found
  · exact .inr found

theorem mem_of_cheapest {candidates : List (Option Path)} {path : Path}
    (found : cheapest candidates = some path) : some path ∈ candidates := by
  have general : ∀ (candidates : List (Option Path)) (best : Option Path),
      candidates.foldl cheaper best = some path → best = some path ∨ some path ∈ candidates := by
    intro candidates
    induction candidates with
    | nil => exact fun best found => .inl found
    | cons candidate rest ih =>
      intro best found
      rcases ih _ found with same | member
      · rcases mem_of_cheaper same with same | same
        · exact .inl same
        · exact .inr (by simp [same])
      · exact .inr (by simp [member])
  rcases general candidates none found with impossible | member
  · cases impossible
  · exact member

end Path

namespace Catalog

variable {catalog : Catalog} {source target : Ty} {path : Path}

theorem truthPath?_leads (found : truthPath? source target = some path) :
    Path.Leads catalog source path target := by
  unfold truthPath? at found
  split at found
  · rename_i truth
    simp only [Bool.and_eq_true, beq_iff_eq] at truth
    cases found
    rw [truth.1]
    exact Path.Leads.single (.nonzero source) (.nonzero truth.2)
  · split at found
    · rename_i number
      simp only [Bool.and_eq_true, beq_iff_eq] at number
      cases found
      rw [number.1]
      exact Path.Leads.single (.select target) (.select number.2)
    · cases found

theorem searchWithin_leads {depth : Nat} {inProgress : List (Ty × Ty)}
    (found : catalog.searchWithin depth inProgress source target = some path) :
    Path.Leads catalog source path target := by
  induction depth generalizing inProgress source target path with
  | zero => cases found
  | succ depth ih =>
    unfold searchWithin at found
    split at found
    · rename_i below
      cases found
      exact .done below
    · split at found
      · rename_i numbers
        simp only [Bool.and_eq_true] at numbers
        cases found
        exact Path.Leads.single (.cast source target) (.cast numbers.1 numbers.2)
      · split at found
        · cases found
        · have candidate := Path.mem_of_cheapest found
          simp only [List.mem_cons, List.not_mem_nil, or_false] at candidate
          rcases candidate with forward | backward | truth
          · obtain ⟨conversion, listed, extended⟩ :=
              List.mem_map.mp (Path.mem_of_cheapest forward.symm)
            obtain ⟨rest, later, rfl⟩ := Option.map_eq_some_iff.mp extended
            obtain ⟨declared, starts⟩ := List.mem_filter.mp listed
            rw [← beq_iff_eq.mp starts]
            exact .step (isSubtype_self _) (.declared declared) (ih later)
          · obtain ⟨conversion, listed, extended⟩ :=
              List.mem_map.mp (Path.mem_of_cheapest backward.symm)
            obtain ⟨rest, earlier, rfl⟩ := Option.map_eq_some_iff.mp extended
            obtain ⟨declared, ends⟩ := List.mem_filter.mp listed
            rw [← beq_iff_eq.mp ends]
            exact Path.Leads.append (ih earlier) (.declared declared)
          · exact truthPath?_leads truth.symm

theorem path?_leads (found : catalog.path? source target = some path) :
    Path.Leads catalog source path target := searchWithin_leads found

/-- No declared type has a supertype. -/
def Flat (catalog : Catalog) : Prop :=
  ∀ declaration ∈ catalog.declarations, declaration.supertype = none

theorem Flat.supertype? (flat : catalog.Flat) (type : Ty) : catalog.supertype? type = none := by
  unfold Catalog.supertype?
  cases found : catalog.find? type with
  | none => rfl
  | some declaration => exact flat declaration (List.mem_of_find?_eq_some found)

theorem Flat.eq_of_isSubtype (flat : catalog.Flat) (below : catalog.isSubtype source target) :
    source = target := by
  unfold isSubtype at below
  cases steps : catalog.declarations.length with
  | zero =>
    rw [steps] at below
    exact beq_iff_eq.mp below
  | succ steps' =>
    rw [steps] at below
    simpa [reaches, flat.supertype?] using below

end Catalog

namespace Node

theorem evalWith_converted {calculator : Calculator}
    {call : Nat → List Value → Except EvalError Value} {slots parameters : List Value}
    (node : Node) (path : Path) :
    (node.converted path).evalWith calculator call slots parameters =
      (node.evalWith calculator call slots parameters >>= fun value =>
        EvalError.lift (path.apply value)) := by
  induction path generalizing node with
  | nil =>
    change node.evalWith calculator call slots parameters = _
    cases node.evalWith calculator call slots parameters <;> rfl
  | cons step rest ih =>
    change (converted (.convert step node) rest).evalWith calculator call slots parameters = _
    rw [ih, evalWith]
    cases node.evalWith calculator call slots parameters with
    | error error => rfl
    | ok value =>
      change (EvalError.lift (step.apply value) >>= fun value =>
        EvalError.lift (Path.apply rest value)) = EvalError.lift (Path.apply (step :: rest) value)
      simp only [Path.apply, List.foldlM_cons]
      cases step.apply value <;> rfl

theorem ty_converted {catalog : Catalog} (flat : catalog.Flat) {node : Node} {path : Path}
    {target : Ty} (leads : Path.Leads catalog node.ty path target) :
    (node.converted path).ty = target := by
  generalize start : node.ty = source at leads
  induction leads generalizing node with
  | done below => exact start.trans (flat.eq_of_isSubtype below)
  | step _ _ _ ih => exact ih rfl

end Node

end Formulary
