import Mathlib.Logic.Relation
import Formulary.Proofs.Catalog.Subtype

namespace Formulary

/-! Subtypes and members in catalogs that are built by declarations in any order. Of several
    declarations of a type the last one counts, whatever was declared before and after it. A type has
    the members of all types above it, each with the type that the nearest declaration gives it. -/

namespace Catalog

variable {catalog : Catalog} {declarations : List Declaration} {lower upper type found : Ty}
  {name : String}

/-- The catalog of declarations that are made one after the other. -/
def declareAll (declarations : List Declaration) : Catalog := declarations.foldl declare empty

/-- The declaration of a type that was made last. -/
def lastOf? (declarations : List Declaration) (type : Ty) : Option Declaration :=
  declarations.reverse.find? fun declaration => declaration.type == type

/-- The last declaration of the one type names the other one as its supertype. -/
def Extends (declarations : List Declaration) (lower upper : Ty) : Prop :=
  ∃ declaration, lastOf? declarations lower = some declaration ∧ declaration.supertype = some upper

/-- The member has the type `found` in the declaration of the first type that declares it, of the
    given one and those above it. -/
inductive Provides (declarations : List Declaration) (name : String) (found : Ty) : Ty → Prop
  | own {type : Ty} {declaration : Declaration}
      (declared : lastOf? declarations type = some declaration)
      (has : declaration.members.get? name = some found) : Provides declarations name found type
  | inherited {type parent : Ty} {declaration : Declaration}
      (declared : lastOf? declarations type = some declaration)
      (lacks : declaration.members.get? name = none) (above : declaration.supertype = some parent)
      (provides : Provides declarations name found parent) : Provides declarations name found type

theorem find?_declare (catalog : Catalog) (declaration : Declaration) (type : Ty) :
    (catalog.declare declaration).find? type =
      if declaration.type = type then some declaration else catalog.find? type := by
  simp only [find?, declare, List.find?_append]
  by_cases same : declaration.type = type
  · have dropped : (catalog.declarations.filter fun other => other.type != declaration.type).find?
        (fun other => other.type == type) = none := by
      simp [same]
    rw [dropped, if_pos same]
    simp [same]
  · have kept : (catalog.declarations.filter fun other => other.type != declaration.type).find?
        (fun other => other.type == type) = catalog.find? type := by
      rw [List.find?_filter, find?]
      congr 1
      funext one
      by_cases found : one.type = type <;> simp [found, Ne.symm same]
    rw [kept, if_neg same]
    simp [same, find?]

theorem find?_declareAll (declarations : List Declaration) (type : Ty) :
    (declareAll declarations).find? type = lastOf? declarations type := by
  induction declarations using List.reverseRecOn with
  | nil => rfl
  | append_singleton earlier declaration ih =>
    rw [declareAll, List.foldl_append, List.foldl_cons, List.foldl_nil, find?_declare, lastOf?,
      List.reverse_append, List.reverse_singleton, List.singleton_append, List.find?_cons]
    by_cases same : declaration.type = type
    · simp [same]
    · rw [if_neg same, beq_false_of_ne same]
      exact ih

theorem supertype?_declareAll :
    (declareAll declarations).supertype? lower = some upper ↔ Extends declarations lower upper := by
  rw [supertype?, find?_declareAll, Option.bind_eq_some_iff]
  rfl

theorem isSubtype_declareAll :
    (declareAll declarations).isSubtype lower upper = true ↔
      Relation.ReflTransGen (Extends declarations) lower upper := by
  rw [isSubtype_iff]
  constructor
  · rintro ⟨count, climbed⟩
    induction count generalizing lower with
    | zero => exact Option.some.inj climbed ▸ .refl
    | succ count ih =>
      obtain ⟨parent, above, rest⟩ := Option.bind_eq_some_iff.mp climbed
      exact .head (supertype?_declareAll.mp above) (ih rest)
  · intro reached
    induction reached using Relation.ReflTransGen.head_induction_on with
    | refl => exact ⟨0, rfl⟩
    | head first _ ih =>
      obtain ⟨count, climbed⟩ := ih
      exact ⟨count + 1, by rw [climb, supertype?_declareAll.mpr first]; exact climbed⟩

/-! Members. -/

/-- Type of a member in the declaration of the type itself. -/
def ownMember? (catalog : Catalog) (name : String) (type : Ty) : Option Ty :=
  (catalog.find? type).bind (·.members.get? name)

theorem memberWithin_succ (steps : Nat) :
    catalog.memberWithin name (steps + 1) type =
      (catalog.ownMember? name type).or
        ((catalog.supertype? type).bind (catalog.memberWithin name steps)) := by
  rw [memberWithin, ownMember?, supertype?]
  cases catalog.find? type with
  | none => rfl
  | some declaration =>
    cases has : declaration.members.get? name <;> simp [has]

theorem memberWithin_eq_some {steps : Nat} :
    catalog.memberWithin name steps type = some found ↔
      ∃ count < steps, catalog.FirstAt (catalog.ownMember? name) found type count := by
  induction steps generalizing type with
  | zero => simp [memberWithin]
  | succ steps ih =>
    rw [memberWithin_succ, Option.or_eq_some_iff, Nat.exists_lt_succ_left, firstAt_zero,
      Option.bind_eq_some_iff]
    simp only [firstAt_succ, ih]
    grind

/-- The bound on the steps cuts off no member. -/
theorem memberType?_eq_some :
    catalog.memberType? type name = some found ↔
      ∃ count, catalog.FirstAt (catalog.ownMember? name) found type count := by
  rw [memberType?, memberWithin_eq_some]
  refine ⟨fun ⟨count, _, first⟩ => ⟨count, first⟩, fun ⟨count, first⟩ => ⟨count, ?_, first⟩⟩
  obtain ⟨reached, before⟩ := first
  obtain ⟨upper, climbed, own⟩ := Option.bind_eq_some_iff.mp reached
  obtain ⟨declaration, declared, -⟩ := Option.bind_eq_some_iff.mp own
  refine climb_lt climbed (fun fewer below early => ?_) (mem_types_of_find? declared)
  have earlier := before fewer below
  rw [foundAt?, early, Option.bind_some, own] at earlier
  cases earlier

/-- The bounded walk finds the member that the one that remembers its way finds. -/
theorem memberType?_eq_walk (catalog : Catalog) (type : Ty) (name : String) :
    catalog.memberType? type name = catalog.walk (catalog.ownMember? name) [] type := by
  refine Option.ext fun found => ?_
  rw [memberType?_eq_some, walk_nil_eq_some]

/-- A member of a type above is a member, though a declaration on the way may give it another
    type. -/
theorem exists_memberType?_of_isSubtype (below : catalog.isSubtype lower upper = true)
    (has : catalog.memberType? upper name = some type) :
    ∃ found, catalog.memberType? lower name = some found := by
  obtain ⟨steps, climbed⟩ := isSubtype_iff.mp below
  obtain ⟨count, reached, -⟩ := memberType?_eq_some.mp has
  have somewhere : ∃ count, (catalog.foundAt? (catalog.ownMember? name) lower count).isSome = true := by
    refine ⟨steps + count, ?_⟩
    rw [foundAt?, climb_add, climbed, Option.bind_some, ← foundAt?, reached]
    rfl
  obtain ⟨found, first⟩ := Option.isSome_iff_exists.mp (Nat.find_spec somewhere)
  refine ⟨found, memberType?_eq_some.mpr ⟨_, first, fun fewer before => ?_⟩⟩
  simpa using Nat.find_min somewhere before

theorem ownMember?_declareAll (name : String) (type : Ty) :
    (declareAll declarations).ownMember? name type =
      (lastOf? declarations type).bind (·.members.get? name) := by
  rw [ownMember?, find?_declareAll]

theorem memberType?_declareAll :
    (declareAll declarations).memberType? type name = some found ↔
      Provides declarations name found type := by
  rw [memberType?_eq_some]
  constructor
  · rintro ⟨count, first⟩
    induction count generalizing type with
    | zero =>
      rw [firstAt_zero, ownMember?_declareAll] at first
      obtain ⟨declaration, declared, has⟩ := Option.bind_eq_some_iff.mp first
      exact .own declared has
    | succ count ih =>
      obtain ⟨own, parent, above, first⟩ := firstAt_succ.mp first
      obtain ⟨declaration, declared, above⟩ := supertype?_declareAll.mp above
      rw [ownMember?_declareAll, declared] at own
      exact .inherited declared own above (ih first)
  · intro provides
    induction provides with
    | own declared has =>
      refine ⟨0, firstAt_zero.mpr ?_⟩
      rw [ownMember?_declareAll, declared]
      exact has
    | inherited declared lacks above _ ih =>
      obtain ⟨count, first⟩ := ih
      refine ⟨count + 1, firstAt_succ.mpr ⟨?_, _, supertype?_declareAll.mpr ⟨_, declared, above⟩,
        first⟩⟩
      rw [ownMember?_declareAll, declared]
      exact lacks

/-- Whatever is declared in whatever order, a type is a subtype of exactly the types that are reached
    from it by zero or more links to the supertypes that were declared last, and a member of a type
    is one of its subtypes, too, with the type given by the first declaration on the way up. -/
theorem declareAll_inherits (declarations : List Declaration) :
    (∀ lower upper, (declareAll declarations).isSubtype lower upper = true ↔
      Relation.ReflTransGen (Extends declarations) lower upper) ∧
    (∀ lower upper name type, (declareAll declarations).isSubtype lower upper = true →
      (declareAll declarations).memberType? upper name = some type →
      ∃ found, (declareAll declarations).memberType? lower name = some found ∧
        Provides declarations name found lower) ∧
    ∀ type name found, (declareAll declarations).memberType? type name = some found ↔
      Provides declarations name found type := by
  refine ⟨fun _ _ => isSubtype_declareAll, fun lower upper name type below has => ?_,
    fun _ _ _ => memberType?_declareAll⟩
  obtain ⟨found, has⟩ := exists_memberType?_of_isSubtype below has
  exact ⟨found, has, memberType?_declareAll.mp has⟩

end Catalog

/-- Two types in a circle, one that was declared with a supertype that is nowhere declared and then
    once more below the circle, and a member that is declared on the way and further up. -/
def circle : List Declaration :=
  [⟨.named "Disc", some (.named "Solid"), [("area", .bool)], []⟩,
    ⟨.named "Shape", some (.named "Figure"), [], []⟩,
    ⟨.named "Figure", some (.named "Shape"), [("area", .float64), ("name", .text)], []⟩,
    ⟨.named "Disc", some (.named "Shape"), [("name", .int32)], []⟩]

theorem circle_inherits :
    Relation.ReflTransGen (Catalog.Extends circle) (.named "Disc") (.named "Figure") ∧
      (Catalog.declareAll circle).memberType? (.named "Figure") "area" = some .float64 ∧
      ∃ found, (Catalog.declareAll circle).memberType? (.named "Disc") "area" = some found ∧
        Catalog.Provides circle "area" found (.named "Disc") := by
  have below : (Catalog.declareAll circle).isSubtype (.named "Disc") (.named "Figure") = true := by
    decide +kernel
  have has : (Catalog.declareAll circle).memberType? (.named "Figure") "area" = some .float64 := by
    decide +kernel
  obtain ⟨subtypes, members, -⟩ := Catalog.declareAll_inherits circle
  exact ⟨(subtypes _ _).mp below, has, members _ _ _ _ below has⟩

end Formulary
