import Formulary.Proofs.Simplify.Normal
import Formulary.Simplify.Pass

namespace Formulary

/-! Flattened chains. A chain that stands as an operand of a chain of the same operator gives way to
    its own operands. Nothing else of the tree changes: its leaves stay in their order, and it
    stands for the same in every domain in which the flattened operators associate. One pass is
    enough, since the operands are flat when a chain takes them in. -/

universe u

/-- What formulas can stand for. An operator combines its operands from left to right, and any other
    node may make whatever it wants of what its parts stand for. -/
structure Domain (M : Type u) where
  number : Decimal → M
  text : String → M
  var : String → M
  unary : UnaryOperator → M → M
  combine : Operator → M → M → M
  /-- An operator that has no operands to combine. -/
  nothing : Operator → M
  member : M → String → M
  call : String → List M → Bool → M
  define : String → List String → M → M → M

variable {M : Type u} {domain : Domain M}

def Domain.chain (domain : Domain M) (op : Operator) : List M → M
  | [] => domain.nothing op
  | first :: rest => rest.foldl (domain.combine op) first

theorem Domain.chain_append {op : Operator}
    (associative : Std.Associative (domain.combine op)) {before after : List M}
    (some_ : before ≠ []) (more : after ≠ []) :
    domain.chain op (before ++ after) =
      domain.combine op (domain.chain op before) (domain.chain op after) := by
  obtain ⟨first, before, rfl⟩ := List.exists_cons_of_ne_nil some_
  obtain ⟨second, after, rfl⟩ := List.exists_cons_of_ne_nil more
  simp only [List.cons_append, chain, List.foldl_append, List.foldl_cons]
  exact List.foldl_assoc

/-- A chain of chains is one chain. -/
theorem Domain.chain_flatten {op : Operator}
    (associative : Std.Associative (domain.combine op)) {rows : List (List M)}
    (filled : ∀ row ∈ rows, row ≠ []) :
    domain.chain op rows.flatten = domain.chain op (rows.map (domain.chain op)) := by
  induction rows with
  | nil => rfl
  | cons row rest ih =>
    obtain ⟨some_, others⟩ := List.forall_mem_cons.mp filled
    cases rest with
    | nil => simp [chain]
    | cons next rest =>
      have more : (next :: rest).flatten ≠ [] := by
        simp [(List.forall_mem_cons.mp others).1]
      -- The first row is combined with the rest on both sides.
      rw [List.flatten_cons, chain_append associative some_ more, ih others]
      exact (chain_append associative (List.cons_ne_nil _ [])
        (by simp : (next :: rest).map (domain.chain op) ≠ [])).symm

namespace Expr

mutual

def denote (domain : Domain M) : Expr → M
  | number value => domain.number value
  | text content => domain.text content
  | var name => domain.var name
  | unary op operand => domain.unary op (denote domain operand)
  | binary op operands => domain.chain op (denoteAll domain operands)
  | member target name => domain.member (denote domain target) name
  | call name arguments primed => domain.call name (denoteAll domain arguments) primed
  | define name parameters body value =>
    domain.define name parameters (denote domain body) (denote domain value)

def denoteAll (domain : Domain M) : List Expr → List M
  | [] => []
  | expr :: rest => denote domain expr :: denoteAll domain rest

end

theorem denoteAll_eq_map (exprs : List Expr) :
    denoteAll domain exprs = exprs.map (denote domain) := by
  induction exprs with
  | nil => rfl
  | cons expr rest ih => rw [denoteAll, ih, List.map_cons]

theorem denote_mapParts {f : Expr → Expr} {expr : Expr}
    (same : ∀ child ∈ expr.children, (f child).denote domain = child.denote domain) :
    (expr.mapParts f).denote domain = expr.denote domain := by
  have all : (expr.children.map f).map (denote domain) =
      expr.children.map (denote domain) := by
    rw [List.map_map]
    exact List.map_congr_left same
  cases expr with
  | number _ | text _ | var _ => rfl
  | unary _ operand => rw [mapParts, denote, denote, same operand (by simp [children])]
  | binary op _ =>
    rw [mapParts, denote, denote, denoteAll_eq_map, denoteAll_eq_map]
    exact congrArg (domain.chain op) all
  | member target _ => rw [mapParts, denote, denote, same target (by simp [children])]
  | call name _ primed =>
    rw [mapParts, denote, denote, denoteAll_eq_map, denoteAll_eq_map]
    exact congrArg (domain.call name · primed) all
  | define _ _ body value =>
    rw [mapParts, denote, denote, same body (by simp [children]), same value (by simp [children])]

def isLeaf : Expr → Bool
  | number _ | text _ | var _ => true
  | _ => false

def leaves (expr : Expr) : List Expr := expr.subtrees.filter isLeaf

theorem leaves_eq (expr : Expr) :
    expr.leaves = [expr].filter isLeaf ++ expr.children.flatMap leaves := by
  rw [leaves, subtrees_eq, ← List.singleton_append, List.filter_append, List.filter_flatMap]
  rfl

theorem leaves_mapParts {f : Expr → Expr} {expr : Expr}
    (same : ∀ child ∈ expr.children, (f child).leaves = child.leaves) :
    (expr.mapParts f).leaves = expr.leaves := by
  have below : (expr.children.map f).flatMap leaves = expr.children.flatMap leaves := by
    rw [List.flatMap_map]
    exact List.flatMap_congr same
  rw [leaves_eq, leaves_eq expr, children_mapParts, below]
  cases expr <;> rfl

/-- A chain of the operator with chains of the same operator taken in. -/
def merged (keptApart : List Operator) (op : Operator) (operands : List Expr) : Expr :=
  binary op (if chains keptApart op then operands.flatMap (spliced op) else operands)

theorem flatten_eq_rewrite (keptApart : List Operator) (expr : Expr) :
    expr.flatten keptApart = expr.rewrite unary (merged keptApart) := flatten_eq keptApart expr

theorem chains_iff {keptApart : List Operator} {op : Operator} :
    chains keptApart op = true ↔ op ∈ [Operator.add, .mul, .and, .or] ∧ op ∉ keptApart := by
  rw [chains, Bool.and_eq_true]
  refine and_congr ?_ (by simp)
  cases op <;> decide

variable {keptApart : List Operator} {op : Operator} {expr operand part : Expr}

theorem spliced_cases (op : Operator) (operand : Expr) :
    (∃ inner, operand = binary op inner ∧ spliced op operand = inner) ∨
      (∀ inner, operand ≠ binary op inner) ∧ spliced op operand = [operand] := by
  cases operand with
  | binary inner operands =>
    by_cases same : inner = op
    · subst same
      exact .inl ⟨operands, rfl, by simp [spliced]⟩
    · exact .inr ⟨by simp [same], by simp [spliced, same]⟩
  | _ => exact .inr ⟨by simp, rfl⟩

theorem flatMap_leaves_spliced (op : Operator) (operand : Expr) :
    (spliced op operand).flatMap leaves = operand.leaves := by
  rcases spliced_cases op operand with ⟨inner, rfl, taken⟩ | ⟨-, alone⟩
  · rw [taken, leaves_eq]
    rfl
  · rw [alone, List.flatMap_singleton]

theorem leaves_merged (keptApart : List Operator) (op : Operator) (operands : List Expr) :
    (merged keptApart op operands).leaves = (binary op operands).leaves := by
  unfold merged
  split
  · rw [leaves_eq, leaves_eq (binary op operands)]
    simp only [children, List.flatMap_assoc, flatMap_leaves_spliced]
    rfl
  · rfl

theorem leaves_flatten (keptApart : List Operator) (expr : Expr) :
    (expr.flatten keptApart).leaves = expr.leaves := by
  rw [flatten_eq_rewrite]
  induction expr using parts_induction with
  | step expr ih =>
    have root : ∀ expr : Expr,
        (expr.rewriteRoot unary (merged keptApart)).leaves = expr.leaves := by
      intro expr
      cases expr with
      | binary op operands => exact leaves_merged keptApart op operands
      | _ => rfl
    rw [rewrite_eq, root, leaves_mapParts ih]

/-- The node is no operator without operands. -/
def IsFilled : Expr → Prop
  | binary _ operands => operands ≠ []
  | _ => True

theorem spliced_ne_nil (filled : operand.IsFilled) : spliced op operand ≠ [] := by
  rcases spliced_cases op operand with ⟨inner, rfl, taken⟩ | ⟨-, alone⟩
  · rw [taken]
    exact filled
  · rw [alone]
    exact List.cons_ne_nil _ _

theorem merged_isFilled {operands : List Expr} (some_ : operands ≠ [])
    (filled : ∀ operand ∈ operands, operand.IsFilled) :
    (merged keptApart op operands).IsFilled := by
  unfold merged
  split
  · obtain ⟨first, rest, rfl⟩ := List.exists_cons_of_ne_nil some_
    have begins : spliced op first ≠ [] := spliced_ne_nil (filled first List.mem_cons_self)
    simp [IsFilled, begins]
  · exact some_

theorem forall_subtrees_merged {holds : Expr → Prop} {operands : List Expr}
    (self : holds (merged keptApart op operands))
    (below : ∀ operand ∈ operands, ∀ part ∈ operand.subtrees, holds part) :
    ∀ part ∈ (merged keptApart op operands).subtrees, holds part := by
  refine forall_subtrees.mpr ⟨self, ?_⟩
  unfold merged
  split
  · intro part member
    obtain ⟨operand, listed, among⟩ := List.mem_flatMap.mp member
    have inside := below operand listed
    rcases spliced_cases op operand with ⟨inner, rfl, taken⟩ | ⟨-, alone⟩
    · rw [taken] at among
      exact (forall_subtrees.mp inside).2 part among
    · rw [alone, List.mem_singleton] at among
      subst among
      exact inside
  · exact below

theorem flatten_isFilled (keptApart : List Operator)
    (filled : ∀ part ∈ expr.subtrees, IsFilled part) :
    ∀ part ∈ (expr.flatten keptApart).subtrees, IsFilled part := by
  rw [flatten_eq_rewrite]
  refine forall_subtrees_rewrite (fun expr some_ below => ?_) expr filled
  cases expr with
  | binary op operands =>
    refine forall_subtrees_merged (merged_isFilled ?_ fun operand member => ?_) below
    · exact fun none_ => some_ (List.map_eq_nil_iff.mp none_)
    · exact below operand member operand operand.self_mem_subtrees
  | _ => exact forall_subtrees.mpr ⟨trivial, below⟩

theorem chain_spliced (op : Operator) (operand : Expr) :
    domain.chain op ((spliced op operand).map (denote domain)) =
      operand.denote domain := by
  rcases spliced_cases op operand with ⟨inner, rfl, taken⟩ | ⟨-, alone⟩
  · rw [taken, denote, denoteAll_eq_map]
  · rw [alone]
    rfl

theorem denote_merged {operands : List Expr}
    (associative : chains keptApart op → Std.Associative (domain.combine op))
    (filled : ∀ operand ∈ operands, operand.IsFilled) :
    (merged keptApart op operands).denote domain = (binary op operands).denote domain := by
  unfold merged
  split
  · rename_i chained
    have rows : ∀ row ∈ operands.map fun operand => (spliced op operand).map (denote domain),
        row ≠ [] := by
      refine List.forall_mem_map.mpr fun operand member none_ => ?_
      exact spliced_ne_nil (filled operand member) (List.map_eq_nil_iff.mp none_)
    calc (binary op (operands.flatMap (spliced op))).denote domain
        = domain.chain op
            (operands.map fun operand => (spliced op operand).map (denote domain)).flatten := by
          rw [denote, denoteAll_eq_map, List.map_flatMap, List.flatMap_def]
      _ = domain.chain op (operands.map (denote domain)) := by
          rw [Domain.chain_flatten (associative chained) rows, List.map_map]
          exact congrArg _ (List.map_congr_left fun operand _ => chain_spliced op operand)
      _ = (binary op operands).denote domain := by rw [denote, denoteAll_eq_map]
  · rfl

theorem denote_flatten
    (associative : ∀ op, chains keptApart op → Std.Associative (domain.combine op))
    (filled : ∀ part ∈ expr.subtrees, IsFilled part) :
    (expr.flatten keptApart).denote domain = expr.denote domain := by
  induction expr using parts_induction with
  | step expr ih =>
    obtain ⟨-, below⟩ := forall_subtrees.mp filled
    have same : ∀ child ∈ expr.children, (child.rewrite unary (merged keptApart)).denote domain =
        child.denote domain := by
      intro child member
      rw [← flatten_eq_rewrite]
      exact ih child member (below child member)
    rw [flatten_eq_rewrite, rewrite_eq, ← denote_mapParts same]
    cases expr with
    | binary op operands =>
      refine denote_merged (associative op) (List.forall_mem_map.mpr fun operand member => ?_)
      rw [← flatten_eq_rewrite]
      exact flatten_isFilled keptApart (below operand member) _ (self_mem_subtrees _)
    | _ => rfl

/-- The operator is one whose chains are not flattened, or no operand is a chain of the same
    operator. -/
def IsFlat (keptApart : List Operator) : Expr → Prop
  | binary op operands => op ∈ [Operator.add, .mul, .and, .or] → op ∉ keptApart →
      ∀ operand ∈ operands, ∀ inner, operand ≠ binary op inner
  | _ => True

theorem merged_isFlat {operands : List Expr}
    (flat : ∀ operand ∈ operands, operand.IsFlat keptApart) :
    (merged keptApart op operands).IsFlat keptApart := by
  intro associative apart part member
  rw [if_pos (chains_iff.mpr ⟨associative, apart⟩)] at member
  obtain ⟨operand, listed, among⟩ := List.mem_flatMap.mp member
  rcases spliced_cases op operand with ⟨inner, rfl, taken⟩ | ⟨other, alone⟩
  · rw [taken] at among
    exact flat _ listed associative apart part among
  · rw [alone, List.mem_singleton] at among
    subst among
    exact other

theorem flatten_isFlat (keptApart : List Operator) (expr : Expr) :
    ∀ part ∈ (expr.flatten keptApart).subtrees, IsFlat keptApart part := by
  rw [flatten_eq_rewrite]
  refine forall_subtrees_rewrite (fun expr (_ : True) below => ?_) expr fun _ _ => trivial
  cases expr with
  | binary op operands =>
    refine forall_subtrees_merged (merged_isFlat fun operand member => ?_) below
    exact below operand member operand operand.self_mem_subtrees
  | _ => exact forall_subtrees.mpr ⟨trivial, below⟩

theorem merged_of_isFlat {operands : List Expr} (flat : (binary op operands).IsFlat keptApart) :
    merged keptApart op operands = binary op operands := by
  unfold merged
  split
  · rename_i chained
    obtain ⟨associative, apart⟩ := chains_iff.mp chained
    have alone : ∀ operand ∈ operands, spliced op operand = [operand] := by
      intro operand member
      rcases spliced_cases op operand with ⟨inner, same, -⟩ | ⟨-, alone⟩
      · exact absurd same (flat associative apart operand member inner)
      · exact alone
    rw [List.flatMap_congr alone, List.flatMap_singleton']
  · rfl

theorem flatten_of_isFlat (flat : ∀ part ∈ expr.subtrees, IsFlat keptApart part) :
    expr.flatten keptApart = expr := by
  rw [flatten_eq_rewrite]
  refine rewrite_eq_self expr fun part member => ?_
  have here := flat part member
  cases part with
  | binary op operands => exact merged_of_isFlat here
  | _ => rfl

end Expr

/-- A flattened tree stands for the same as before, in whatever domain the flattened operators
    associate. Every operator keeps an operand. -/
theorem Pass.flatten_denotes (domain : Domain M) (keptApart : List Operator)
    (associative : ∀ op ∈ [Operator.add, .mul, .and, .or], op ∉ keptApart →
      Std.Associative (domain.combine op))
    (expr : Expr) (filled : ∀ part ∈ expr.subtrees, part.IsFilled) :
    ∃ flat, (Pass.flatten keptApart).run expr = (flat, []) ∧
      (∀ part ∈ flat.subtrees, part.IsFilled) ∧
      flat.denote domain = expr.denote domain := by
  have chained : ∀ op, Expr.chains keptApart op → Std.Associative (domain.combine op) := by
    intro op chained
    obtain ⟨listed, apart⟩ := Expr.chains_iff.mp chained
    exact associative op listed apart
  exact ⟨expr.flatten keptApart, rfl, Expr.flatten_isFilled keptApart filled,
    Expr.denote_flatten chained filled⟩

/-- Formulas spelled out. Products are among the operations that are put in brackets. -/
def spelling : Domain String where
  number value := value.text
  text content := content
  var name := name
  unary _ operand := "-" ++ operand
  combine
    | .add, left, right | .and, left, right | .or, left, right => left ++ right
    | _, left, right => "(" ++ left ++ right ++ ")"
  nothing _ := ""
  member target name := target ++ name
  call name arguments _ := name ++ String.join arguments
  define name _ body value := name ++ body ++ value

def nestedSums : Expr :=
  .binary .mul [
    .call "ln" [.binary .add [.var "a", .binary .add [.var "b", .var "c"]]] false,
    .binary .mul [.var "d", .binary .sub [.var "x", .binary .sub [.var "y", .var "z"]]]]

/-- The sum is flattened, and what is in brackets keeps its place. -/
theorem nestedSums_denotes :
    (∀ op ∈ [Operator.add, .mul, .and, .or], op ∉ [Operator.mul] →
      Std.Associative (spelling.combine op)) ∧
    (∀ part ∈ nestedSums.subtrees, part.IsFilled) ∧
    ∃ flat, (Pass.flatten [.mul]).run nestedSums = (flat, []) ∧
      Expr.binary .add [.var "a", .var "b", .var "c"] ∈ flat.subtrees ∧
      flat.denote spelling = nestedSums.denote spelling := by
  have associative : ∀ op ∈ [Operator.add, .mul, .and, .or], op ∉ [Operator.mul] →
      Std.Associative (spelling.combine op) := by
    intro op listed apart
    simp only [List.mem_cons, List.not_mem_nil, or_false] at listed apart
    rcases listed with rfl | rfl | rfl | rfl
    · exact ⟨fun a b c => String.append_assoc⟩
    · exact absurd rfl apart
    · exact ⟨fun a b c => String.append_assoc⟩
    · exact ⟨fun a b c => String.append_assoc⟩
  have filled : ∀ part ∈ nestedSums.subtrees, part.IsFilled := by
    simp [nestedSums, Expr.subtrees, Expr.subtreesAll, Expr.IsFilled]
  obtain ⟨flat, done, -, same⟩ := Pass.flatten_denotes spelling [.mul] associative nestedSums filled
  refine ⟨associative, filled, flat, done, ?_, same⟩
  cases done
  simp [nestedSums, Expr.flatten, Expr.flattenAll, Expr.chains, Expr.spliced, Expr.subtrees,
    Expr.subtreesAll, Operator.isAssociative]

/-- Flattening is done in one pass: no operand of a flattened chain is a chain of the same operator,
    and a second pass has nothing to do. The leaves stay as they are. -/
theorem Pass.flatten_normal (keptApart : List Operator) (expr : Expr) :
    ∃ flat, (Pass.flatten keptApart).run expr = (flat, []) ∧
      (∀ part ∈ flat.subtrees, part.IsFlat keptApart) ∧
      flat.leaves = expr.leaves ∧
      (Pass.flatten keptApart).run flat = (flat, []) := by
  have flat := expr.flatten_isFlat keptApart
  refine ⟨expr.flatten keptApart, rfl, flat, expr.leaves_flatten keptApart, ?_⟩
  exact congrArg (·, []) (Expr.flatten_of_isFlat flat)

end Formulary
