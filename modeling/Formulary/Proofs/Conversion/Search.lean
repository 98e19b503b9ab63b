import Mathlib.Data.Finset.Card
import Mathlib.Data.Finset.Filter
import Mathlib.Data.Finset.Prod
import Mathlib.Data.List.Sort
import Formulary.Conversion.Search

namespace Formulary.Catalog

/-! The search for a path of conversions is not cut short: it starts from the source or from the
    target of a declared conversion, no pair of types is searched inside itself, and the depth of
    searches is greater than the number of pairs. -/

variable {catalog : Catalog} {source target : Ty} {inProgress : List (Ty × Ty)}

/-- Pairs of types that a search can come to. -/
def searched (catalog : Catalog) (source target : Ty) : Finset (Ty × Ty) :=
  (source :: catalog.conversions.map (·.target)).toFinset ×ˢ
    (target :: catalog.conversions.map (·.source)).toFinset

theorem card_searched_lt (catalog : Catalog) (source target : Ty) :
    (catalog.searched source target).card < catalog.searchDepth := by
  have sources : (source :: catalog.conversions.map (·.target)).toFinset.card ≤
      catalog.conversions.length + 1 := by
    simpa using List.toFinset_card_le (source :: catalog.conversions.map (·.target))
  have targets : (target :: catalog.conversions.map (·.source)).toFinset.card ≤
      catalog.conversions.length + 1 := by
    simpa using List.toFinset_card_le (target :: catalog.conversions.map (·.source))
  have double : catalog.conversions.length + 1 ≤ 2 * catalog.conversions.length + 2 := by omega
  rw [searched, Finset.card_product, searchDepth, Nat.lt_succ_iff, Nat.pow_two]
  exact Nat.mul_le_mul (sources.trans double) (targets.trans double)

/-- A pair that is searched is one less that can be searched inside. -/
theorem card_sdiff_cons {pairs : Finset (Ty × Ty)} {pair : Ty × Ty} (member : pair ∈ pairs)
    (new : pair ∉ inProgress) :
    (pairs.filter (· ∉ pair :: inProgress)).card < (pairs.filter (· ∉ inProgress)).card := by
  refine Finset.card_lt_card ((Finset.ssubset_iff_of_subset
    (Finset.monotone_filter_right _ ?_)).mpr ⟨pair, ?_, ?_⟩)
  · exact fun other _ absent member => absent (List.mem_cons_of_mem _ member)
  · exact Finset.mem_filter.mpr ⟨member, new⟩
  · intro listed
    exact (Finset.mem_filter.mp listed).2 List.mem_cons_self

/-- The cheapest path that extends one between nearer types, as `search` finds those. -/
def extension (catalog : Catalog) (search : Ty → Ty → Option Path) (source target : Ty) :
    Option Path :=
  Path.cheapest [
    Path.cheapest ((catalog.conversions.filter (·.source == source)).map fun conversion =>
      (search conversion.target target).map (.declared conversion :: ·)),
    Path.cheapest ((catalog.conversions.filter (·.target == target)).map fun conversion =>
      (search source conversion.source).map (· ++ [.declared conversion])),
    truthPath? source target]

theorem searchWithin_succ (catalog : Catalog) (depth : Nat) (inProgress : List (Ty × Ty))
    (source target : Ty) :
    catalog.searchWithin (depth + 1) inProgress source target =
      if catalog.isSubtype source target then some []
      else if source.isPrimitiveNumeric && target.isPrimitiveNumeric then
        some [.cast source target]
      else if inProgress.contains (source, target) then none
      else catalog.extension
        (catalog.searchWithin depth ((source, target) :: inProgress)) source target := rfl

theorem extension_congr {search other : Ty → Ty → Option Path}
    (forward : ∀ conversion ∈ catalog.conversions, conversion.source = source →
      search conversion.target target = other conversion.target target)
    (backward : ∀ conversion ∈ catalog.conversions, conversion.target = target →
      search source conversion.source = other source conversion.source) :
    catalog.extension search source target = catalog.extension other source target := by
  have starts : (catalog.conversions.filter (·.source == source)).map (fun conversion =>
        (search conversion.target target).map (Step.declared conversion :: ·)) =
      (catalog.conversions.filter (·.source == source)).map (fun conversion =>
        (other conversion.target target).map (Step.declared conversion :: ·)) := by
    refine List.map_congr_left fun conversion listed => ?_
    obtain ⟨declared, leaves⟩ := List.mem_filter.mp listed
    rw [forward conversion declared (beq_iff_eq.mp leaves)]
  have ends : (catalog.conversions.filter (·.target == target)).map (fun conversion =>
        (search source conversion.source).map (· ++ [Step.declared conversion])) =
      (catalog.conversions.filter (·.target == target)).map (fun conversion =>
        (other source conversion.source).map (· ++ [Step.declared conversion])) := by
    refine List.map_congr_left fun conversion listed => ?_
    obtain ⟨declared, enters⟩ := List.mem_filter.mp listed
    rw [backward conversion declared (beq_iff_eq.mp enters)]
  rw [extension, extension, starts, ends]

/-- A search without a bound on nested searches that comes to an end, and what it finds. -/
inductive Searches (catalog : Catalog) : List (Ty × Ty) → Ty → Ty → Option Path → Prop
  | same {inProgress : List (Ty × Ty)} {source target : Ty}
      (related : catalog.isSubtype source target) :
      Searches catalog inProgress source target (some [])
  | cast {inProgress : List (Ty × Ty)} {source target : Ty}
      (apart : ¬ catalog.isSubtype source target)
      (numbers : source.isPrimitiveNumeric && target.isPrimitiveNumeric) :
      Searches catalog inProgress source target (some [.cast source target])
  | again {inProgress : List (Ty × Ty)} {source target : Ty}
      (apart : ¬ catalog.isSubtype source target)
      (others : ¬ (source.isPrimitiveNumeric && target.isPrimitiveNumeric))
      (old : (source, target) ∈ inProgress) : Searches catalog inProgress source target none
  | extend {inProgress : List (Ty × Ty)} {source target : Ty} {found : Ty → Ty → Option Path}
      (apart : ¬ catalog.isSubtype source target)
      (others : ¬ (source.isPrimitiveNumeric && target.isPrimitiveNumeric))
      (new : (source, target) ∉ inProgress)
      (forward : ∀ conversion ∈ catalog.conversions, conversion.source = source →
        Searches catalog ((source, target) :: inProgress) conversion.target target
          (found conversion.target target))
      (backward : ∀ conversion ∈ catalog.conversions, conversion.target = target →
        Searches catalog ((source, target) :: inProgress) source conversion.source
          (found source conversion.source)) :
      Searches catalog inProgress source target (catalog.extension found source target)

theorem Searches.unique {found other : Option Path}
    (search : catalog.Searches inProgress source target found)
    (again : catalog.Searches inProgress source target other) : found = other := by
  induction search generalizing other with
  | same related => cases again <;> trivial
  | cast apart numbers => cases again <;> trivial
  | again apart others old => cases again <;> trivial
  | extend apart others new _ _ forward backward =>
    cases again with
    | same related => exact absurd related apart
    | cast _ numbers => exact absurd numbers others
    | again _ _ old => exact absurd old new
    | extend _ _ _ forward' backward' =>
      exact extension_congr
        (fun conversion listed starts => forward conversion listed starts
          (forward' conversion listed starts))
        fun conversion listed ends => backward conversion listed ends
          (backward' conversion listed ends)

theorem searchWithin_searches {first last : Ty} {depth : Nat}
    (member : (source, target) ∈ catalog.searched first last)
    (enough : ((catalog.searched first last).filter (· ∉ inProgress)).card < depth) :
    catalog.Searches inProgress source target
      (catalog.searchWithin depth inProgress source target) := by
  induction depth generalizing inProgress source target with
  | zero => exact absurd enough (Nat.not_lt_zero _)
  | succ depth ih =>
    rw [searchWithin_succ]
    split
    · rename_i related
      exact .same related
    · rename_i apart
      split
      · rename_i numbers
        exact .cast apart numbers
      · rename_i others
        split
        · rename_i old
          exact .again apart others (by simpa using old)
        · rename_i new
          have new : (source, target) ∉ inProgress := by simpa using new
          have fewer := card_sdiff_cons member new
          obtain ⟨fromSource, toTarget⟩ := Finset.mem_product.mp member
          refine .extend apart others new (fun conversion listed _ => ih ?_ (by omega))
            fun conversion listed _ => ih ?_ (by omega)
          · exact Finset.mem_product.mpr
              ⟨by simpa using .inr ⟨conversion, listed, rfl⟩, toTarget⟩
          · exact Finset.mem_product.mpr
              ⟨fromSource, by simpa using .inr ⟨conversion, listed, rfl⟩⟩

theorem searchWithin_deep (source target : Ty) {depth : Nat}
    (enough : catalog.searchDepth ≤ depth) :
    catalog.Searches [] source target (catalog.searchWithin depth [] source target) := by
  have start : (source, target) ∈ catalog.searched source target :=
    Finset.mem_product.mpr ⟨by simp, by simp⟩
  have room := card_searched_lt catalog source target
  have all := Finset.card_filter_le (catalog.searched source target) (· ∉ ([] : List (Ty × Ty)))
  exact searchWithin_searches start (by omega)

/-- The search comes to an end, also where conversions form cycles. -/
theorem path?_searches (catalog : Catalog) (source target : Ty) :
    catalog.Searches [] source target (catalog.path? source target) :=
  searchWithin_deep source target (Nat.le_refl _)

theorem searchWithin_eq_path? (source target : Ty) {depth : Nat}
    (enough : catalog.searchDepth ≤ depth) :
    catalog.searchWithin depth [] source target = catalog.path? source target :=
  (searchWithin_deep source target enough).unique (catalog.path?_searches source target)

/-! Types are sorted by insertion, which keeps equally wide ones in their order. -/

theorem byWidth_eq (types : List Ty) :
    byWidth types = types.insertionSort fun a b => b.width ≤ a.width := by
  have inserted (type : Ty) (sorted : List Ty) :
      insertByWidth type sorted = sorted.orderedInsert (fun a b => b.width ≤ a.width) type := by
    fun_induction insertByWidth type sorted <;> simp [*]
  exact congrArg (types.foldr · []) (funext₂ inserted)

theorem mem_byWidth {type : Ty} {types : List Ty} : type ∈ byWidth types ↔ type ∈ types := by
  rw [byWidth_eq, List.mem_insertionSort]

theorem pairwise_byWidth (types : List Ty) :
    (byWidth types).Pairwise fun a b => b.width ≤ a.width := by
  have total : Std.Total fun a b : Ty => b.width ≤ a.width := ⟨fun a b => Nat.le_total _ _⟩
  have transitive : IsTrans Ty fun a b => b.width ≤ a.width :=
    ⟨fun a b c first second => Nat.le_trans second first⟩
  rw [byWidth_eq]
  exact List.pairwise_insertionSort _ types

end Formulary.Catalog
