import Formulary.SpanMap
import Formulary.Proofs.Decimal.Number

namespace Formulary

/-! Which span a tree has after a row of records: that of the first record of an equal tree. -/

namespace Expr

mutual

/-- The tree with each number stored in its shortest form. -/
def canonical : Expr → Expr
  | number value => number value.normalize
  | text content => text content
  | var name => var name
  | unary op operand => unary op operand.canonical
  | binary op operands => binary op (canonicalAll operands)
  | member target name => member target.canonical name
  | call name arguments primed => call name (canonicalAll arguments) primed
  | define name parameters body value => define name parameters body.canonical value.canonical

def canonicalAll : List Expr → List Expr
  | [] => []
  | expr :: rest => expr.canonical :: canonicalAll rest

end

mutual

theorem equal_iff : ∀ a b : Expr, equal a b = true ↔ a.canonical = b.canonical
  | number a, b => by
    cases b <;> simp [equal, canonical, Decimal.beq_iff, Decimal.normalize_eq_iff]
  | text a, b | var a, b => by cases b <;> simp [equal, canonical]
  | unary op a, b => by cases b <;> simp [equal, canonical, equal_iff a]
  | binary op as, b => by cases b <;> simp [equal, canonical, equalAll_iff as]
  | member a name, b => by cases b <;> simp [equal, canonical, equal_iff a, and_comm]
  | call name as primed, b => by
    cases b <;> simp [equal, canonical, equalAll_iff as, and_assoc, and_left_comm, and_comm]
  | define name parameters body value, b => by
    cases b <;> simp [equal, canonical, equal_iff body, equal_iff value, and_assoc]

theorem equalAll_iff :
    ∀ as bs : List Expr, equalAll as bs = true ↔ canonicalAll as = canonicalAll bs
  | [], bs => by cases bs <;> simp [equalAll, canonicalAll]
  | a :: as, bs => by cases bs <;> simp [equalAll, canonicalAll, equal_iff a, equalAll_iff as]

end

mutual

theorem size_canonical : ∀ expr : Expr, expr.canonical.size = expr.size
  | number _ | text _ | var _ => by simp [canonical, size]
  | unary _ operand => by simp [canonical, size, size_canonical operand]
  | binary _ operands => by simp [canonical, size, sizeAll_canonicalAll operands]
  | member target _ => by simp [canonical, size, size_canonical target]
  | call _ arguments _ => by simp [canonical, size, sizeAll_canonicalAll arguments]
  | define _ _ body value => by simp [canonical, size, size_canonical body, size_canonical value]

theorem sizeAll_canonicalAll : ∀ exprs : List Expr, sizeAll (canonicalAll exprs) = sizeAll exprs
  | [] => rfl
  | expr :: rest => by simp [canonicalAll, sizeAll, size_canonical expr, sizeAll_canonicalAll rest]

end

theorem beq_iff {a b : Expr} : (a == b) = true ↔ a.canonical = b.canonical := equal_iff a b

instance : EquivBEq Expr where
  rfl := beq_iff.mpr rfl
  symm same := beq_iff.mpr (beq_iff.mp same).symm
  trans same same' := beq_iff.mpr ((beq_iff.mp same).trans (beq_iff.mp same'))

theorem size_eq_of_beq {a b : Expr} (same : (a == b) = true) : a.size = b.size := by
  rw [← size_canonical a, beq_iff.mp same, size_canonical b]

end Expr

namespace SpanMap

variable {map : SpanMap} {expr : Expr}

@[simp] theorem spanOf?_empty (expr : Expr) : empty.spanOf? expr = none := rfl

theorem spanOf?_congr {other : Expr} (same : (expr == other) = true) :
    map.spanOf? expr = map.spanOf? other := by
  have alike : (fun entry : Expr × Span => entry.1 == expr) = fun entry => entry.1 == other :=
    funext fun _ => BEq.congr_right same
  rw [spanOf?, spanOf?, alike]

theorem record_of_isSome (found : (map.spanOf? expr).isSome = true) (span : Span) :
    map.record expr span = map := by
  obtain ⟨first, found⟩ := Option.isSome_iff_exists.mp found
  rw [record, found]

theorem spanOf?_record (map : SpanMap) (expr : Expr) (span : Span) (other : Expr) :
    (map.record expr span).spanOf? other =
      (map.spanOf? other).or (if expr == other then some span else none) := by
  cases found : map.spanOf? expr with
  | some first =>
    rw [record, found]
    by_cases same : (expr == other) = true
    · rw [← spanOf?_congr same, found]
      rfl
    · simp [same]
  | none =>
    rw [record, found]
    by_cases same : (expr == other) = true
    · rw [(spanOf?_congr same).symm.trans found]
      simp [spanOf?, same]
    · simp [spanOf?, same]

/-- Record one tree after the other. -/
def recordAll (map : SpanMap) (entries : List (Expr × Span)) : SpanMap :=
  entries.foldl (fun map entry => map.record entry.1 entry.2) map

theorem recordAll_append (map : SpanMap) (first second : List (Expr × Span)) :
    map.recordAll (first ++ second) = (map.recordAll first).recordAll second :=
  List.foldl_append

theorem spanOf?_recordAll (map : SpanMap) (entries : List (Expr × Span)) (expr : Expr) :
    (map.recordAll entries).spanOf? expr =
      (map.spanOf? expr).or ((entries.find? (·.1 == expr)).map (·.2)) := by
  induction entries generalizing map with
  | nil => simp [recordAll]
  | cons entry entries ih =>
    change ((map.record entry.1 entry.2).recordAll entries).spanOf? expr = _
    rw [ih, spanOf?_record, List.find?_cons]
    split <;> simp_all

theorem recordAll_of_isSome {entries : List (Expr × Span)}
    (found : ∀ entry ∈ entries, (map.spanOf? entry.1).isSome = true) :
    map.recordAll entries = map := by
  induction entries with
  | nil => rfl
  | cons entry entries ih =>
    obtain ⟨first, others⟩ := List.forall_mem_cons.mp found
    change (map.record entry.1 entry.2).recordAll entries = map
    rw [record_of_isSome first, ih others]

theorem recordAll_entries (map : SpanMap) (entries : List (Expr × Span)) :
    map.recordAll (empty.recordAll entries).entries.reverse = map.recordAll entries := by
  induction entries using List.reverseRecOn with
  | nil => rfl
  | append_singleton entries entry ih =>
    have more (map : SpanMap) : map.recordAll (entries ++ [entry]) =
        (map.recordAll entries).record entry.1 entry.2 := recordAll_append map entries [entry]
    rw [more, more]
    cases found : (empty.recordAll entries).spanOf? entry.1 with
    | some span =>
      have listed : (entries.find? (·.1 == entry.1)).map (·.2) = some span := by
        rwa [spanOf?_recordAll] at found
      have known : ((map.recordAll entries).spanOf? entry.1).isSome = true := by
        simp [spanOf?_recordAll, listed]
      rw [record_of_isSome (by rw [found]; rfl), ih, record_of_isSome known]
    | none =>
      rw [record, found, List.reverse_cons, recordAll_append, ih]
      rfl

theorem recordAll_congr {one two : List (Expr × Span)}
    (same : empty.recordAll one = empty.recordAll two) (map : SpanMap) :
    map.recordAll one = map.recordAll two := by
  rw [← recordAll_entries map one, same, recordAll_entries]

/-- Records that are made again change nothing. -/
theorem recordAll_recordAll (map : SpanMap) (entries : List (Expr × Span)) :
    (map.recordAll entries).recordAll entries = map.recordAll entries := by
  refine recordAll_of_isSome fun entry member => ?_
  have listed : (entries.find? (·.1 == entry.1)).isSome = true :=
    List.find?_isSome.mpr ⟨entry, member, BEq.rfl⟩
  rw [spanOf?_recordAll, Option.isSome_or, Option.isSome_map, listed, Bool.or_true]

end SpanMap

end Formulary
