import Mathlib.Algebra.Order.Group.Nat
import Mathlib.Algebra.Order.Monoid.Prod
import Formulary.Proofs.Conversion.Path
import Formulary.Proofs.Conversion.Search

namespace Formulary

/-! The search for a path of conversions finds the cheapest of the paths that arise by extension
    at either end. Pairs of types in progress are left out of it, and this loses nothing: on the
    way along a shortest path the paths between the types that are still to be joined get shorter
    and shorter, so none of these pairs is searched already. -/

namespace Path

/-- What paths are compared by: their lengths, then their explicit steps, then their losses. -/
def cost (path : Path) : ℕ ×ₗ ℕ ×ₗ ℕ :=
  toLex (path.length, toLex (path.explicitCount, path.loss))

theorem atMost_iff {path other : Path} : path.atMost other = true ↔ path.cost ≤ other.cost := by
  unfold atMost cost
  simp only [Prod.Lex.toLex_le_toLex]
  split <;> rename_i lengths
  · simp [lengths]
  · split <;> rename_i explicits
    · simp_all
    · simp_all

theorem cost_append (path rest : Path) : cost (path ++ rest) = path.cost + rest.cost := by
  have losses : loss (path ++ rest) = loss path + loss rest := by
    induction path with
    | nil => simp [loss]
    | cons step path ih =>
      simp only [loss, List.cons_append, List.foldr_cons] at ih ⊢
      omega
  simp only [cost, explicitCount, losses, List.length_append, List.countP_append]
  rfl

theorem cost_cons_le {path other : Path} (step : Step) (below : path.cost ≤ other.cost) :
    cost (step :: path) ≤ cost (step :: other) := by
  rw [← List.singleton_append, ← List.singleton_append (l := other), cost_append, cost_append]
  exact add_le_add_right below _

theorem cost_concat_le {path other : Path} (step : Step) (below : path.cost ≤ other.cost) :
    cost (path ++ [step]) ≤ cost (other ++ [step]) := by
  rw [cost_append, cost_append]
  exact add_le_add_left below _

theorem cost_nil_le (path : Path) : cost [] ≤ path.cost := by
  simp only [cost, Prod.Lex.toLex_le_toLex, explicitCount, loss, List.length_nil,
    List.countP_nil, List.foldr_nil]
  omega

theorem cost_lt_of_length_lt {path other : Path} (shorter : path.length < other.length) :
    path.cost < other.cost :=
  Prod.Lex.toLex_lt_toLex.mpr (.inl shorter)

theorem length_le_of_cost_le {path other : Path} (cheaper : path.cost ≤ other.cost) :
    path.length ≤ other.length :=
  not_lt.mp fun longer => not_le.mpr (cost_lt_of_length_lt longer) cheaper

theorem cheapest_le {candidates : List (Option Path)} {path : Path}
    (member : some path ∈ candidates) :
    ∃ best, cheapest candidates = some best ∧ best.cost ≤ path.cost := by
  have step : ∀ (best candidate : Option Path) (path : Path),
      best = some path ∨ candidate = some path →
        ∃ next, cheaper best candidate = some next ∧ next.cost ≤ path.cost := by
    intro best candidate path given
    unfold cheaper
    split
    · rename_i best candidate
      split <;> rename_i order
      · rcases given with given | given <;> cases given
        · exact ⟨_, rfl, le_refl _⟩
        · exact ⟨_, rfl, atMost_iff.mp order⟩
      · have dearer : candidate.cost ≤ best.cost :=
          (not_le.mp fun below => order (atMost_iff.mpr below)).le
        rcases given with given | given <;> cases given
        · exact ⟨_, rfl, dearer⟩
        · exact ⟨_, rfl, le_refl _⟩
    · rcases given with given | given <;> cases given
      exact ⟨_, rfl, le_refl _⟩
    · rcases given with given | given
      · cases given
      · exact ⟨path, given, le_refl _⟩
  have general : ∀ (candidates : List (Option Path)) (best : Option Path) (path : Path),
      best = some path ∨ some path ∈ candidates →
        ∃ last, candidates.foldl cheaper best = some last ∧ last.cost ≤ path.cost := by
    intro candidates
    induction candidates with
    | nil => exact fun best path given => ⟨path, given.resolve_right List.not_mem_nil, le_refl _⟩
    | cons candidate rest ih =>
      intro best path given
      rw [List.foldl_cons]
      rcases given with given | given
      · obtain ⟨next, chosen, below⟩ := step best candidate path (.inl given)
        obtain ⟨last, ended, less⟩ := ih _ next (.inl chosen)
        exact ⟨last, ended, less.trans below⟩
      · rcases List.mem_cons.mp given with same | given
        · obtain ⟨next, chosen, below⟩ := step best candidate path (.inr same.symm)
          obtain ⟨last, ended, less⟩ := ih _ next (.inl chosen)
          exact ⟨last, ended, less.trans below⟩
        · exact ih _ path (.inr given)
  exact general candidates none path (.inr member)

/-- Paths to which a search can come: a step that needs no declaration, or none, extended by
    declared conversions at both ends. Between machine numbers only a cast is looked at. -/
inductive Extended (catalog : Catalog) : Ty → Path → Ty → Prop
  | same {source target : Ty} (below : catalog.isSubtype source target) :
      Extended catalog source [] target
  | cast {source target : Ty} (apart : ¬ catalog.isSubtype source target)
      (numbers : source.isPrimitiveNumeric && target.isPrimitiveNumeric) :
      Extended catalog source [.cast source target] target
  | truth {source target : Ty} {path : Path}
      (found : Catalog.truthPath? source target = some path) :
      Extended catalog source path target
  | first {conversion : Conversion} {target : Ty} {rest : Path}
      (listed : conversion ∈ catalog.conversions)
      (apart : ¬ (conversion.source.isPrimitiveNumeric && target.isPrimitiveNumeric))
      (later : Extended catalog conversion.target rest target) :
      Extended catalog conversion.source (.declared conversion :: rest) target
  | last {conversion : Conversion} {source : Ty} {path : Path}
      (listed : conversion ∈ catalog.conversions)
      (apart : ¬ (source.isPrimitiveNumeric && conversion.target.isPrimitiveNumeric))
      (earlier : Extended catalog source path conversion.source) :
      Extended catalog source (path ++ [.declared conversion]) conversion.target

end Path

namespace Catalog

variable {catalog : Catalog} {source target : Ty} {inProgress : List (Ty × Ty)} {path : Path}

/-- An extension is the path of truth values, or extends a path that was found at one end. -/
theorem extension_cases {search : Ty → Ty → Option Path}
    (found : catalog.extension search source target = some path) :
    truthPath? source target = some path ∨
    (∃ conversion ∈ catalog.conversions, ∃ rest, conversion.source = source ∧
      search conversion.target target = some rest ∧ path = .declared conversion :: rest) ∨
    ∃ conversion ∈ catalog.conversions, ∃ head, conversion.target = target ∧
      search source conversion.source = some head ∧ path = head ++ [.declared conversion] := by
  have candidate := Path.mem_of_cheapest found
  simp only [List.mem_cons, List.not_mem_nil, or_false] at candidate
  rcases candidate with forward | backward | truth
  · obtain ⟨conversion, listed, extended⟩ :=
      List.mem_map.mp (Path.mem_of_cheapest forward.symm)
    obtain ⟨rest, later, rfl⟩ := Option.map_eq_some_iff.mp extended
    obtain ⟨declared, starts⟩ := List.mem_filter.mp listed
    exact .inr (.inl ⟨conversion, declared, rest, beq_iff_eq.mp starts, later, rfl⟩)
  · obtain ⟨conversion, listed, extended⟩ :=
      List.mem_map.mp (Path.mem_of_cheapest backward.symm)
    obtain ⟨head, earlier, rfl⟩ := Option.map_eq_some_iff.mp extended
    obtain ⟨declared, ends⟩ := List.mem_filter.mp listed
    exact .inr (.inr ⟨conversion, declared, head, beq_iff_eq.mp ends, earlier, rfl⟩)
  · exact .inl truth.symm

theorem extension_first_le {search : Ty → Ty → Option Path} {conversion : Conversion}
    (listed : conversion ∈ catalog.conversions)
    (found : search conversion.target target = some path) :
    ∃ best, catalog.extension search conversion.source target = some best ∧
      best.cost ≤ Path.cost (.declared conversion :: path) := by
  have candidate : some (.declared conversion :: path) ∈
      (catalog.conversions.filter (·.source == conversion.source)).map fun other =>
        (search other.target target).map (.declared other :: ·) :=
    List.mem_map.mpr ⟨conversion, List.mem_filter.mpr ⟨listed, by simp⟩, by simp [found]⟩
  obtain ⟨nearest, chosen, below⟩ := Path.cheapest_le candidate
  obtain ⟨best, ended, less⟩ : ∃ best,
      catalog.extension search conversion.source target = some best ∧ best.cost ≤ nearest.cost :=
    Path.cheapest_le (List.mem_cons.mpr (.inl chosen.symm))
  exact ⟨best, ended, less.trans below⟩

theorem extension_last_le {search : Ty → Ty → Option Path} {conversion : Conversion}
    (listed : conversion ∈ catalog.conversions)
    (found : search source conversion.source = some path) :
    ∃ best, catalog.extension search source conversion.target = some best ∧
      best.cost ≤ Path.cost (path ++ [.declared conversion]) := by
  have candidate : some (path ++ [.declared conversion]) ∈
      (catalog.conversions.filter (·.target == conversion.target)).map fun other =>
        (search source other.source).map (· ++ [.declared other]) :=
    List.mem_map.mpr ⟨conversion, List.mem_filter.mpr ⟨listed, by simp⟩, by simp [found]⟩
  obtain ⟨nearest, chosen, below⟩ := Path.cheapest_le candidate
  obtain ⟨best, ended, less⟩ : ∃ best,
      catalog.extension search source conversion.target = some best ∧ best.cost ≤ nearest.cost :=
    Path.cheapest_le (List.mem_cons_of_mem _ (List.mem_cons.mpr (.inl chosen.symm)))
  exact ⟨best, ended, less.trans below⟩

theorem not_numbers_of_truthPath? (found : truthPath? source target = some path) :
    ¬ (source.isPrimitiveNumeric && target.isPrimitiveNumeric) = true := by
  unfold truthPath? at found
  split at found
  · simp_all [Ty.isPrimitiveNumeric]
  · split at found
    · simp_all [Ty.isPrimitiveNumeric]
    · cases found

theorem searchWithin_extended {depth : Nat}
    (found : catalog.searchWithin depth inProgress source target = some path) :
    Path.Extended catalog source path target := by
  induction depth generalizing inProgress source target path with
  | zero => cases found
  | succ depth ih =>
    rw [searchWithin_succ] at found
    split at found
    · rename_i below
      cases found
      exact .same below
    · rename_i apart
      split at found
      · rename_i numbers
        cases found
        exact .cast apart numbers
      · rename_i others
        split at found
        · cases found
        · rcases extension_cases found with truth |
            ⟨conversion, listed, rest, rfl, later, rfl⟩ |
            ⟨conversion, listed, head, rfl, earlier, rfl⟩
          · exact .truth truth
          · exact .first listed others (ih later)
          · exact .last listed others (ih earlier)

/-- With a depth greater than its length, a search finds a path no dearer than a given one, as
    long as the pairs in progress are farther apart. -/
theorem searchWithin_le {depth : Nat} (extended : Path.Extended catalog source path target)
    (deep : path.length < depth)
    (farther : ∀ pair ∈ inProgress, ∀ other, Path.Extended catalog pair.1 other pair.2 →
      path.length < other.length) :
    ∃ best, catalog.searchWithin depth inProgress source target = some best ∧
      best.cost ≤ path.cost := by
  induction size : path.length using Nat.strong_induction_on
    generalizing depth inProgress source target path with
  | h size' ih =>
    subst size
    by_cases shortest : ∃ other, Path.Extended catalog source other target ∧
        other.length < path.length
    · -- A shorter path leads on, and is cheaper whatever its steps are.
      obtain ⟨other, between, shorter⟩ := shortest
      obtain ⟨best, found, below⟩ := ih _ shorter between (shorter.trans deep)
        (fun pair member third long => shorter.trans (farther pair member third long)) rfl
      exact ⟨best, found, below.trans (Path.cost_lt_of_length_lt shorter).le⟩
    · have least : ∀ other, Path.Extended catalog source other target →
          path.length ≤ other.length := fun other between =>
        not_lt.mp fun shorter => shortest ⟨other, between, shorter⟩
      have new : (source, target) ∉ inProgress := fun member =>
        (farther _ member path extended).false
      obtain ⟨depth, rfl⟩ := Nat.exists_eq_succ_of_ne_zero (Nat.ne_zero_of_lt deep)
      rw [searchWithin_succ]
      split
      · exact ⟨[], rfl, path.cost_nil_le⟩
      · rename_i unrelated
        have inner : ∀ {rest : Path}, rest.length < path.length →
            ∀ pair ∈ (source, target) :: inProgress, ∀ other,
              Path.Extended catalog pair.1 other pair.2 → rest.length < other.length := by
          intro rest shorter pair member other between
          rcases List.mem_cons.mp member with rfl | member
          · exact shorter.trans_le (least other between)
          · exact shorter.trans (farther pair member other between)
        have fresh : ¬ inProgress.contains (source, target) = true := by simpa using new
        cases extended with
        | same below => exact absurd below unrelated
        | cast _ numbers =>
          rw [if_pos numbers]
          exact ⟨_, rfl, le_refl _⟩
        | truth found =>
          rw [if_neg (not_numbers_of_truthPath? found), if_neg fresh]
          exact Path.cheapest_le (by simp [found])
        | @first conversion _ rest listed apart later =>
          have shorter : rest.length < (Step.declared conversion :: rest).length := by simp
          obtain ⟨near, found, below⟩ := ih _ shorter later
            (Nat.lt_of_lt_of_le shorter (Nat.le_of_lt_succ deep)) (inner shorter) rfl
          rw [if_neg apart, if_neg fresh]
          obtain ⟨best, ended, less⟩ := extension_first_le listed found
          exact ⟨best, ended, less.trans (Path.cost_cons_le _ below)⟩
        | @last conversion _ head listed apart earlier =>
          have shorter : head.length < (head ++ [Step.declared conversion]).length := by simp
          obtain ⟨near, found, below⟩ := ih _ shorter earlier
            (Nat.lt_of_lt_of_le shorter (Nat.le_of_lt_succ deep)) (inner shorter) rfl
          rw [if_neg apart, if_neg fresh]
          obtain ⟨best, ended, less⟩ := extension_last_le listed found
          exact ⟨best, ended, less.trans (Path.cost_concat_le _ below)⟩

/-- The path that is found is one of those that extension gives, and there is none cheaper. -/
theorem path?_le (extended : Path.Extended catalog source path target) :
    ∃ best, catalog.path? source target = some best ∧
      Path.Extended catalog source best target ∧ best.cost ≤ path.cost := by
  have deep : path.length < max catalog.searchDepth (path.length + 1) := by omega
  obtain ⟨best, found, below⟩ :=
    searchWithin_le extended deep (fun _ (member : _ ∈ []) => nomatch member)
  rw [searchWithin_eq_path? source target (le_max_left _ _)] at found
  exact ⟨best, found, searchWithin_extended found, below⟩

end Catalog

end Formulary
