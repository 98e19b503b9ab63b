import Formulary.Lowering.State

namespace Formulary

theorem mem_of_lookup_eq_some {α β : Type} [BEq α] [LawfulBEq α] {entries : List (α × β)} {key : α}
    {value : β} (found : entries.lookup key = some value) : (key, value) ∈ entries := by
  obtain ⟨before, after, equal, -⟩ := List.lookup_eq_some_iff.mp found
  simp [equal]

namespace FunctionTable

/-! The memo of a function table lists the functions from the last to the first: its entries are
    numbered without gaps, so an index and a signature determine each other. -/

/-- Argument types and return type of each function, by its index. -/
def signatures (table : FunctionTable) : List (List Ty × Ty) :=
  table.memo.reverse.map fun entry => (entry.1.types, entry.2.2)

/-- The memo has one entry for each function, in the order of reservation. -/
def Numbered (table : FunctionTable) : Prop :=
  table.memo.reverse.map (fun entry => entry.2.1) = List.range table.bodies.length

variable {table : FunctionTable}

theorem Numbered.get {entry : Signature × Nat × Ty} (numbered : table.Numbered)
    (member : entry ∈ table.memo) : table.memo.reverse[entry.2.1]? = some entry := by
  obtain ⟨position, found⟩ := List.mem_iff_getElem?.mp (List.mem_reverse.mpr member)
  have index : (List.range table.bodies.length)[position]? = some entry.2.1 := by
    rw [← numbered, List.getElem?_map, found]
    rfl
  have same : position = entry.2.1 := by
    obtain ⟨bound, equal⟩ := List.getElem?_eq_some_iff.mp index
    simpa using equal
  rw [← same]
  exact found

theorem Numbered.index_lt {entry : Signature × Nat × Ty} (numbered : table.Numbered)
    (member : entry ∈ table.memo) : entry.2.1 < table.bodies.length := by
  have listed : entry.2.1 ∈ table.memo.reverse.map (fun entry => entry.2.1) :=
    List.mem_map_of_mem (List.mem_reverse.mpr member)
  rw [numbered] at listed
  exact List.mem_range.mp listed

theorem Numbered.length_memo (numbered : table.Numbered) :
    table.memo.length = table.bodies.length := by
  simpa using congrArg List.length numbered

theorem mem_of_lookup {signature : Signature} {index : Nat} {type : Ty}
    (found : table.lookup signature = some (index, type)) :
    (signature, index, type) ∈ table.memo := mem_of_lookup_eq_some found

theorem Numbered.lookup_signature {signature : Signature} {index : Nat} {type : Ty}
    (numbered : table.Numbered) (found : table.lookup signature = some (index, type)) :
    table.signatures[index]? = some (signature.types, type) := by
  have entry := numbered.get (mem_of_lookup found)
  rw [signatures, List.getElem?_map, entry]
  rfl

@[simp] theorem signatures_reserve (signature : Signature) (type : Ty) :
    (table.reserve signature type).signatures = table.signatures ++ [(signature.types, type)] := by
  simp [signatures, reserve]

theorem Numbered.length_signatures (numbered : table.Numbered) :
    table.signatures.length = table.bodies.length := by
  simpa [signatures] using numbered.length_memo

theorem Numbered.reserve (numbered : table.Numbered) (signature : Signature) (type : Ty) :
    (table.reserve signature type).Numbered := by
  simp only [Numbered, FunctionTable.reserve, List.reverse_cons, List.map_append, List.map_cons,
    List.map_nil, List.length_append, List.length_cons, List.length_nil, Nat.zero_add,
    List.range_succ]
  rw [numbered]

theorem Numbered.store (numbered : table.Numbered) (index : Nat) (function : Function) :
    (table.store index function).Numbered := by
  simpa [Numbered, FunctionTable.store] using numbered

theorem finish_eq {functions : List Function} (bodies : table.bodies = functions.map some) :
    table.finish = .ok functions := by
  rw [finish, bodies]
  clear bodies
  induction functions with
  | nil => rfl
  | cons function rest ih => rw [List.map_cons, List.mapM_cons, ih]; rfl

theorem rollback_eq {before after : FunctionTable} (numbered : before.Numbered)
    (afterNumbered : after.Numbered) (bodies : before.bodies <+: after.bodies)
    (memo : before.memo <:+ after.memo) :
    after.rollback before.bodies.length =
      { before with nextDefinition := after.nextDefinition } := by
  obtain ⟨added, split⟩ := bodies
  obtain ⟨newer, grown⟩ := memo
  have older : ∀ entry ∈ before.memo, entry.2.1 < before.bodies.length :=
    fun entry member => numbered.index_lt member
  have later : ∀ entry ∈ newer, before.bodies.length ≤ entry.2.1 := by
    intro entry member
    have indices := afterNumbered
    rw [Numbered, ← grown, List.reverse_append, List.map_append, numbered, ← split,
      List.length_append, List.range_add] at indices
    have listed : entry.2.1 ∈ newer.reverse.map (fun entry => entry.2.1) :=
      List.mem_map_of_mem (List.mem_reverse.mpr member)
    rw [List.append_cancel_left indices] at listed
    obtain ⟨offset, -, equal⟩ := List.mem_map.mp listed
    omega
  have kept : after.memo.filter (fun entry => entry.2.1 < before.bodies.length) = before.memo := by
    rw [← grown, List.filter_append, List.filter_eq_nil_iff.mpr, List.nil_append,
      List.filter_eq_self.mpr]
    · intro entry member
      simpa using older entry member
    · intro entry member
      simpa using later entry member
  simp only [rollback, kept, ← split, List.take_left']

end FunctionTable

end Formulary
