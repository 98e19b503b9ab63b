import Mathlib.Logic.Function.Basic
import Formulary.Proofs.Simplify.Substitute
import Formulary.Simplify.Pass

namespace Formulary

/-! Inlining ends. A replacement copies the body once for every call and the arguments once for
    every use of a parameter, so the tree and the number of its definitions can grow. What grows
    less are the definitions on the way to any one part of the fully expanded tree: a call is as
    deep as the body it stands for on top of its deepest argument, and a definition adds a layer
    to what is below it. -/

namespace Expr

mutual

/-- Most definitions on the way to a part of the tree when all calls are replaced; a call of a
    function adds its cost. -/
def layers (cost : String → Nat) : Expr → Nat
  | number _ | text _ | var _ => 0
  | unary _ operand => layers cost operand
  | binary _ operands => layersAll cost operands
  | member target _ => layers cost target
  | call name arguments _ => cost name + layersAll cost arguments
  | define name _ body value =>
    1 + max (layers cost body) (layers (Function.update cost name (layers cost body)) value)

def layersAll (cost : String → Nat) : List Expr → Nat
  | [] => 0
  | expr :: rest => max (layers cost expr) (layersAll cost rest)

end

/-- Layers of a tree in which all functions from outside stay. -/
abbrev ownLayers (expr : Expr) : Nat := expr.layers fun _ => 0

theorem layers_le_layersAll {cost : String → Nat} {exprs : List Expr} {expr : Expr}
    (member : expr ∈ exprs) : expr.layers cost ≤ layersAll cost exprs := by
  induction exprs with
  | nil => simp at member
  | cons first rest ih =>
    rw [layersAll]
    rcases List.mem_cons.mp member with rfl | member
    · omega
    · have := ih member
      omega

theorem update_le_update {cost cost' : String → Nat} {amount amount' : Nat}
    (le : ∀ name, cost name ≤ cost' name) (cheaper : amount ≤ amount') (name other : String) :
    Function.update cost name amount other ≤ Function.update cost' name amount' other := by
  by_cases own : other = name
  · simp [own, cheaper]
  · simp [own, le]

mutual

theorem layers_mono : ∀ (expr : Expr) {cost cost' : String → Nat},
    (∀ name, cost name ≤ cost' name) → expr.layers cost ≤ expr.layers cost'
  | number _, _, _, _ | text _, _, _, _ | var _, _, _, _ => Nat.le_refl 0
  | unary _ operand, _, _, le => layers_mono operand le
  | binary _ operands, _, _, le => layersAll_mono operands le
  | member target _, _, _, le => layers_mono target le
  | call name arguments _, _, _, le => Nat.add_le_add (le name) (layersAll_mono arguments le)
  | define name _ body value, cost, cost', le => by
    have inside := layers_mono body le
    have below := layers_mono value (update_le_update le inside name)
    simp only [layers]
    omega

theorem layersAll_mono : ∀ (exprs : List Expr) {cost cost' : String → Nat},
    (∀ name, cost name ≤ cost' name) → layersAll cost exprs ≤ layersAll cost' exprs
  | [], _, _, _ => Nat.le_refl 0
  | expr :: rest, _, _, le => by
    have first := layers_mono expr le
    have others := layersAll_mono rest le
    simp only [layersAll]
    omega

end

mutual

/-- Only the costs of functions that a tree calls count. -/
theorem layers_congr : ∀ (expr : Expr) {cost cost' : String → Nat},
    (∀ name ∈ expr.callees, cost name = cost' name) → expr.layers cost = expr.layers cost'
  | number _, _, _, _ | text _, _, _, _ | var _, _, _, _ => rfl
  | unary _ operand, _, _, same => layers_congr operand same
  | binary _ operands, _, _, same => layersAll_congr operands (by simpa using same)
  | member target _, _, _, same => layers_congr target same
  | call name arguments _, _, _, same => by
    simp only [callees_call, List.forall_mem_cons] at same
    rw [layers, layers, same.1, layersAll_congr arguments same.2]
  | define name _ body value, cost, cost', same => by
    simp only [callees_define, List.forall_mem_append] at same
    have below : value.layers (Function.update cost name (body.layers cost)) =
        value.layers (Function.update cost' name (body.layers cost)) := by
      refine layers_congr value fun other called => ?_
      by_cases own : other = name
      · simp [own]
      · simp [own, same.2 other called]
    rw [layers, layers, below, layers_congr body same.1]

theorem layersAll_congr : ∀ (exprs : List Expr) {cost cost' : String → Nat},
    (∀ name ∈ exprs.flatMap callees, cost name = cost' name) →
      layersAll cost exprs = layersAll cost' exprs
  | [], _, _, _ => rfl
  | expr :: rest, _, _, same => by
    simp only [List.flatMap_cons, List.forall_mem_append] at same
    rw [layersAll, layersAll, layers_congr expr same.1, layersAll_congr rest same.2]

end

theorem layers_update {cost : String → Nat} {name : String} {expr : Expr}
    (uncalled : name ∉ expr.callees) (amount : Nat) :
    expr.layers (Function.update cost name amount) = expr.layers cost := by
  refine layers_congr expr fun other called => Function.update_of_ne ?_ amount cost
  rintro rfl
  exact uncalled called

variable {bindings : List (String × Expr)} {deepest : Nat}

mutual

/-- With trees in place of its variables a tree is as deep as before on top of the deepest of them,
    as long as they call no function that it defines. -/
theorem layers_substitute : ∀ (expr : Expr) {cost : String → Nat},
    (∀ name argument, bindings.lookup name = some argument → argument.layers cost ≤ deepest ∧
      ∀ defined ∈ expr.definitions, defined ∉ argument.callees) →
      (expr.substitute bindings).layers cost ≤ expr.layers cost + deepest
  | number _, _, _ | text _, _, _ => Nat.zero_le _
  | var name, _, given => by
    rw [substitute]
    cases found : bindings.lookup name with
    | none => exact Nat.zero_le _
    | some argument =>
      have := (given name argument found).1
      simp only [Option.getD_some, layers]
      omega
  | unary _ operand, _, given => layers_substitute operand given
  | binary _ operands, _, given => layersAll_substitute operands (by simpa using given)
  | member target _, _, given => layers_substitute target given
  | call _ arguments _, _, given => by
    have inside := layersAll_substitute arguments (by simpa using given)
    simp only [substitute, layers]
    omega
  | define name _ body value, cost, given => by
    have below : (value.substitute bindings).layers
        (Function.update cost name (body.layers cost)) ≤
          value.layers (Function.update cost name (body.layers cost)) + deepest := by
      refine layers_substitute value fun parameter argument found => ?_
      obtain ⟨shallow, apart⟩ := given parameter argument found
      simp only [definitions_define, List.forall_mem_cons, List.forall_mem_append] at apart
      exact ⟨by rwa [layers_update apart.1], apart.2.2⟩
    simp only [substitute, layers]
    omega

theorem layersAll_substitute : ∀ (exprs : List Expr) {cost : String → Nat},
    (∀ name argument, bindings.lookup name = some argument → argument.layers cost ≤ deepest ∧
      ∀ defined ∈ exprs.flatMap definitions, defined ∉ argument.callees) →
      layersAll cost (substituteAll bindings exprs) ≤ layersAll cost exprs + deepest
  | [], _, _ => Nat.zero_le _
  | expr :: rest, cost, given => by
    simp only [List.flatMap_cons, List.forall_mem_append] at given
    have first := layers_substitute expr fun name argument found =>
      ⟨(given name argument found).1, (given name argument found).2.1⟩
    have others := layersAll_substitute rest fun name argument found =>
      ⟨(given name argument found).1, (given name argument found).2.2⟩
    simp only [substituteAll, layersAll]
    omega

end

end Expr

namespace Definition

variable {definition : Definition}

theorem layers_instantiate {cost : String → Nat} {arguments : List Expr}
    (apart : definition.captures arguments = false) :
    (definition.instantiate arguments).layers cost ≤
      definition.body.layers cost + Expr.layersAll cost arguments := by
  refine Expr.layers_substitute definition.body fun name argument found => ?_
  have member : argument ∈ arguments := mem_of_lookup_zip found
  have disjoint : disjointNames argument.callees definition.body.definitions = true := by
    simpa using List.any_eq_false.mp apart argument member
  exact ⟨Expr.layers_le_layersAll member, fun defined listed called =>
    disjointNames_iff.mp disjoint defined called listed⟩

mutual

/-- Where a call costs at least the layers of the body, the body in place of the calls makes no
    tree deeper. -/
theorem layers_replaceCalls : ∀ (expr : Expr) {cost : String → Nat},
    definition.body.layers cost ≤ cost definition.name →
      (definition.replaceCalls expr).layers cost ≤ expr.layers cost
  | .number _, _, _ | .text _, _, _ | .var _, _, _ => Nat.le_refl 0
  | .unary _ operand, _, covered => layers_replaceCalls operand covered
  | .binary _ operands, _, covered => layersAll_replaceCalls operands covered
  | .member target _, _, covered => layers_replaceCalls target covered
  | .call name arguments primed, cost, covered => by
    have inside := layersAll_replaceCalls arguments covered
    rw [replaceCalls]
    split
    case isFalse =>
      simp only [Expr.layers]
      omega
    case isTrue replaced =>
      simp only [Bool.and_eq_true, beq_iff_eq, Bool.not_eq_true'] at replaced
      obtain ⟨⟨⟨-, rfl⟩, -⟩, apart⟩ := replaced
      have entered : (definition.instantiate (definition.replaceCallsAll arguments)).layers cost ≤
          definition.body.layers cost +
            Expr.layersAll cost (definition.replaceCallsAll arguments) :=
        layers_instantiate apart
      simp only [Expr.layers]
      omega
  | .define name parameters body value, cost, covered => by
    rw [replaceCalls]
    split
    case isTrue => exact Nat.le_refl _
    case isFalse unshadowed =>
      simp only [shadowedBy, Bool.not_eq_true, Bool.or_eq_false_iff,
        beq_eq_false_iff_ne] at unshadowed
      obtain ⟨different, absent⟩ := unshadowed
      have uncalled : name ∉ definition.body.callees := by simpa using absent
      -- The own name and the body keep their costs below another definition.
      have below (amount : Nat) :
          (definition.replaceCalls value).layers (Function.update cost name amount) ≤
            value.layers (Function.update cost name amount) := by
        refine layers_replaceCalls value ?_
        rw [Expr.layers_update uncalled, Function.update_of_ne different.symm]
        exact covered
      split
      case isFalse =>
        have := below (body.layers cost)
        simp only [Expr.layers]
        omega
      case isTrue =>
        have inside := layers_replaceCalls body covered
        have := below (body.layers cost)
        have := Expr.layers_mono (definition.replaceCalls value)
          (Expr.update_le_update (fun other => Nat.le_refl (cost other)) inside name)
        simp only [Expr.layers]
        omega

theorem layersAll_replaceCalls : ∀ (exprs : List Expr) {cost : String → Nat},
    definition.body.layers cost ≤ cost definition.name →
      Expr.layersAll cost (definition.replaceCallsAll exprs) ≤ Expr.layersAll cost exprs
  | [], _, _ => Nat.le_refl 0
  | expr :: rest, _, covered => by
    have first := layers_replaceCalls expr covered
    have others := layersAll_replaceCalls rest covered
    simp only [replaceCallsAll, Expr.layersAll]
    omega

end

end Definition

namespace Expr

theorem ownLayers_body_lt (name : String) (parameters : List String) (body value : Expr) :
    body.ownLayers < (define name parameters body value).ownLayers := by
  simp only [ownLayers, layers]
  omega

theorem ownLayers_le_layers (expr : Expr) (cost : String → Nat) :
    expr.ownLayers ≤ expr.layers cost :=
  layers_mono expr fun _ => Nat.zero_le _

theorem ownLayers_value_lt (name : String) (parameters : List String) (body value : Expr) :
    value.ownLayers < (define name parameters body value).ownLayers := by
  have := value.ownLayers_le_layers (Function.update (fun _ => 0) name body.ownLayers)
  simp only [ownLayers, layers] at this ⊢
  omega

/-- A replacement takes a layer away, whether or not calls are left over. -/
theorem ownLayers_replaceCalls_lt {definition : Definition}
    (once : definition.body.countCalls definition.name = 0) (value : Expr) :
    (definition.replaceCalls value).ownLayers <
      (define definition.name definition.parameters definition.body value).ownLayers := by
  have uncalled := countCalls_eq_zero.mp once
  let cost := Function.update (fun _ => 0) definition.name definition.body.ownLayers
  have covered : definition.body.layers cost ≤ cost definition.name := by
    simp only [cost, layers_update uncalled, Function.update_self, ownLayers, Nat.le_refl]
  have replaced := Definition.layers_replaceCalls value covered
  have own := (definition.replaceCalls value).ownLayers_le_layers cost
  simp only [ownLayers, layers, cost] at replaced own ⊢
  omega

section

variable {again again' : Nat → List String → Expr → Expr} {limits : Inlining} {bounded : Nat}

mutual

/-- A round depends only on what is done to trees with fewer layers. -/
theorem inlineWith_congr (same : ∀ depth bound expr, ownLayers expr < bounded →
    again depth bound expr = again' depth bound expr) :
    ∀ (expr : Expr) (depth : Nat) (bound : List String), expr.ownLayers ≤ bounded →
      expr.inlineWith again limits depth bound = expr.inlineWith again' limits depth bound
  | number _, _, _, _ | text _, _, _, _ | var _, _, _, _ => rfl
  | unary _ operand, depth, bound, within => by
    rw [inlineWith, inlineWith, inlineWith_congr same operand depth bound within]
  | binary _ operands, depth, bound, within => by
    rw [inlineWith, inlineWith, inlineAllWith_congr same operands depth bound within]
  | member target _, depth, bound, within => by
    rw [inlineWith, inlineWith, inlineWith_congr same target depth bound within]
  | call _ arguments _, depth, bound, within => by
    rw [inlineWith, inlineWith, inlineAllWith_congr same arguments depth bound
      (by simpa only [ownLayers, layers, Nat.zero_add] using within)]
  | define name parameters body value, depth, bound, within => by
    have inside := inlineWith_congr same body (depth + 1) (parameters ++ bound)
      (Nat.le_of_lt (Nat.lt_of_lt_of_le (ownLayers_body_lt name parameters body value) within))
    have below := inlineWith_congr same value (depth + 1) (parameters ++ bound)
      (Nat.le_of_lt (Nat.lt_of_lt_of_le (ownLayers_value_lt name parameters body value) within))
    rw [inlineWith, inlineWith, inside, below]
    dsimp only
    split
    case isFalse => rfl
    case isTrue may =>
      simp only [Definition.replaceable, Bool.and_eq_true, beq_iff_eq] at may
      have fewer :
          ((Definition.mk name parameters body).replaceCalls value).ownLayers < bounded :=
        Nat.lt_of_lt_of_le (ownLayers_replaceCalls_lt may.1.2 value) within
      rw [same depth bound _ fewer, same (depth + 1) (parameters ++ bound) _ fewer]

theorem inlineAllWith_congr (same : ∀ depth bound expr, ownLayers expr < bounded →
    again depth bound expr = again' depth bound expr) :
    ∀ (exprs : List Expr) (depth : Nat) (bound : List String),
      layersAll (fun _ => 0) exprs ≤ bounded →
      inlineAllWith again limits depth bound exprs = inlineAllWith again' limits depth bound exprs
  | [], _, _, _ => rfl
  | expr :: rest, depth, bound, within => by
    have first : expr.ownLayers ≤ bounded := Nat.le_trans (Nat.le_max_left _ _) within
    have others := Nat.le_trans (Nat.le_max_right _ _) within
    rw [inlineAllWith, inlineAllWith, inlineWith_congr same expr depth bound first,
      inlineAllWith_congr same rest depth bound others]

end

end

/-- Inline with anything in place of what would follow the last of `rounds` replacements on the
    way to a part of the result. -/
def inlineFrom (beyond : Nat → List String → Expr → Expr) (limits : Inlining) :
    Nat → Nat → List String → Expr → Expr
  | 0 => beyond
  | rounds + 1 => inlineWith (inlineFrom beyond limits rounds) limits

theorem inlineWithin_eq_inlineFrom (limits : Inlining) (rounds : Nat) :
    inlineWithin limits rounds = inlineFrom (fun _ _ expr => expr) limits rounds := by
  induction rounds with
  | zero => rfl
  | succ rounds ih =>
    funext depth bound expr
    rw [inlineWithin, inlineFrom, ih]

/-- More rounds than there are layers are never used up. -/
theorem inlineFrom_eq (beyond beyond' : Nat → List String → Expr → Expr) (limits : Inlining)
    {rounds rounds' : Nat} (expr : Expr) (depth : Nat) (bound : List String)
    (enough : expr.ownLayers < rounds) (enough' : expr.ownLayers < rounds') :
    inlineFrom beyond limits rounds depth bound expr =
      inlineFrom beyond' limits rounds' depth bound expr := by
  induction rounds generalizing rounds' expr depth bound with
  | zero => omega
  | succ rounds ih =>
    obtain ⟨rounds', rfl⟩ := Nat.exists_eq_add_one_of_ne_zero (Nat.ne_zero_of_lt enough')
    rw [inlineFrom, inlineFrom]
    exact inlineWith_congr (fun depth bound smaller fewer =>
      ih smaller depth bound (by omega) (by omega)) expr depth bound (Nat.le_refl _)

/-! The number of rounds that are made: a tree of `n` nodes with `k` definitions has fewer than
    `(n + 1) ^ (k + 1)` layers, since a call adds at most the layers of a body, and each of the
    definitions at most multiplies them by the nodes below it. -/

/-- More than the layers of a tree that calls functions of the cost `most`. -/
def layerBound (most nodes definitions : Nat) : Nat := (most + 1) * (nodes + 1) ^ (definitions + 1)

section

variable {most nodes nodes' definitions definitions' : Nat}

theorem layerBound_mono (larger : nodes ≤ nodes') (more : definitions ≤ definitions') :
    layerBound most nodes definitions ≤ layerBound most nodes' definitions' :=
  Nat.mul_le_mul_left (most + 1)
    (Nat.le_trans (Nat.pow_le_pow_left (Nat.succ_le_succ larger) (definitions + 1))
      (Nat.pow_le_pow_right (Nat.succ_pos nodes') (Nat.succ_le_succ more)))

theorem layerBound_succ :
    (most + 1) + layerBound most nodes definitions ≤ layerBound most (nodes + 1) definitions := by
  have grows : (nodes + 1) ^ (definitions + 1) + 1 ≤ (nodes + 2) ^ (definitions + 1) :=
    Nat.pow_lt_pow_left (Nat.lt_succ_self _) (Nat.succ_ne_zero definitions)
  calc (most + 1) + layerBound most nodes definitions
      = (most + 1) * ((nodes + 1) ^ (definitions + 1) + 1) := by
        rw [layerBound, Nat.mul_add, Nat.mul_one, Nat.add_comm]
    _ ≤ (most + 1) * (nodes + 2) ^ (definitions + 1) := Nat.mul_le_mul_left (most + 1) grows

theorem lt_layerBound : most < layerBound most nodes definitions :=
  Nat.le_mul_of_pos_right (most + 1) (Nat.pow_pos (Nat.succ_pos nodes))

/-- Below a definition its body is the dearest function. -/
theorem layerBound_layerBound :
    layerBound (layerBound most nodes definitions - 1) nodes' definitions' ≤
      layerBound most (nodes + nodes') (definitions + definitions' + 1) := by
  have positive : layerBound most nodes definitions - 1 + 1 = layerBound most nodes definitions :=
    Nat.sub_add_cancel (Nat.lt_of_le_of_lt (Nat.zero_le most) lt_layerBound)
  calc layerBound (layerBound most nodes definitions - 1) nodes' definitions'
      = (most + 1) * ((nodes + 1) ^ (definitions + 1) * (nodes' + 1) ^ (definitions' + 1)) := by
        rw [layerBound, positive, layerBound, Nat.mul_assoc]
    _ ≤ (most + 1) * ((nodes + nodes' + 1) ^ (definitions + 1) *
          (nodes + nodes' + 1) ^ (definitions' + 1)) :=
        Nat.mul_le_mul_left (most + 1) (Nat.mul_le_mul
          (Nat.pow_le_pow_left (by omega) (definitions + 1))
          (Nat.pow_le_pow_left (by omega) (definitions' + 1)))
    _ = layerBound most (nodes + nodes') (definitions + definitions' + 1) := by
        rw [← Nat.pow_add, layerBound]
        congr 2
        omega

end

mutual

theorem layers_lt_layerBound : ∀ (expr : Expr) {cost : String → Nat} {most : Nat},
    (∀ name, cost name ≤ most) →
      expr.layers cost < layerBound most expr.size expr.definitions.length
  | number _, _, most, _ | text _, _, most, _ | var _, _, most, _ =>
    Nat.lt_of_le_of_lt (Nat.zero_le most) lt_layerBound
  | unary _ operand, _, most, within =>
    Nat.lt_of_lt_of_le (layers_lt_layerBound operand within)
      (layerBound_mono (Nat.le_add_left _ 1) (Nat.le_refl _))
  | binary _ operands, _, most, within => by
    have inside := layersAll_lt_layerBound operands within
    rw [definitions_binary]
    exact Nat.lt_of_lt_of_le inside (layerBound_mono (Nat.le_add_left _ 1) (Nat.le_refl _))
  | member target _, _, most, within =>
    Nat.lt_of_lt_of_le (layers_lt_layerBound target within)
      (layerBound_mono (Nat.le_add_left _ 1) (Nat.le_refl _))
  | call name arguments _, cost, most, within => by
    have inside := layersAll_lt_layerBound arguments within
    have called := within name
    rw [definitions_call, layers, size, Nat.add_comm 1]
    refine Nat.lt_of_lt_of_le ?_ layerBound_succ
    omega
  | define name _ body value, cost, most, within => by
    have inside := layers_lt_layerBound body within
    have dearest : ∀ other, Function.update cost name (body.layers cost) other ≤
        layerBound most body.size body.definitions.length - 1 := by
      intro other
      by_cases own : other = name
      · simp only [own, Function.update_self]
        omega
      · have := within other
        have : most < layerBound most body.size body.definitions.length := lt_layerBound
        rw [Function.update_of_ne own]
        omega
    have below := Nat.lt_of_lt_of_le (layers_lt_layerBound value dearest) layerBound_layerBound
    have inside : body.layers cost < layerBound most (body.size + value.size)
        (body.definitions.length + value.definitions.length + 1) :=
      Nat.lt_of_lt_of_le inside (layerBound_mono (by omega) (by omega))
    rw [definitions_define, List.length_cons, List.length_append, layers, size,
      Nat.add_comm 1 (body.size + value.size)]
    refine Nat.lt_of_lt_of_le ?_ layerBound_succ
    omega

theorem layersAll_lt_layerBound : ∀ (exprs : List Expr) {cost : String → Nat} {most : Nat},
    (∀ name, cost name ≤ most) →
      layersAll cost exprs < layerBound most (sizeAll exprs) (exprs.flatMap definitions).length
  | [], _, most, _ => Nat.lt_of_le_of_lt (Nat.zero_le most) lt_layerBound
  | expr :: rest, _, most, within => by
    have first := Nat.lt_of_lt_of_le (layers_lt_layerBound expr within)
      (layerBound_mono (Nat.le_add_right _ (sizeAll rest))
        (Nat.le_add_right _ (rest.flatMap definitions).length))
    have others := Nat.lt_of_lt_of_le (layersAll_lt_layerBound rest within)
      (layerBound_mono (Nat.le_add_left _ expr.size)
        (Nat.le_add_left _ expr.definitions.length))
    rw [List.flatMap_cons, List.length_append, sizeAll, layersAll]
    omega

end

theorem ownLayers_lt_inlineRounds (expr : Expr) : expr.ownLayers < expr.inlineRounds := by
  have bounded := expr.layers_lt_layerBound (fun _ => Nat.le_refl 0)
  have fewer : layerBound 0 expr.size expr.definitions.length ≤ expr.inlineRounds := by
    rw [layerBound, Nat.zero_add, Nat.one_mul]
    exact Nat.pow_le_pow_left (Nat.le_succ _) _
  exact Nat.lt_of_lt_of_le bounded fewer

end Expr

/-- Inlining ends, with any limits: no more than `inlineRounds` replacements follow each other on
    the way to any part of the result, so that whatever would be done after them makes no
    difference. -/
theorem Pass.inline_terminates (limits : Inlining) (expr : Expr)
    (beyond : Nat → List String → Expr → Expr) {rounds : Nat}
    (enough : expr.inlineRounds ≤ rounds) :
    (Pass.inline limits).run expr = (Expr.inlineFrom beyond limits rounds 0 [] expr, []) := by
  have fewer := expr.ownLayers_lt_inlineRounds
  rw [Pass.run, Expr.inline, Expr.inlineWithin_eq_inlineFrom,
    Expr.inlineFrom_eq _ beyond limits expr 0 [] fewer (Nat.lt_of_lt_of_le fewer enough)]

/-- A definition in the body of `f` and another one in the argument that the body uses twice. -/
def nestedCopies : Expr :=
  .define "f" ["x"]
    (.define "g" ["y"] (.binary .add [.var "y", .var "c"])
      (.binary .mul [.call "g" [.var "x"] true, .call "g" [.var "x"] true]))
    (.call "f" [.define "h" ["z"] (.unary .negate (.var "z")) (.call "h" [.var "b"] true)] true)

/-- The definition of `h` is there twice when `f` and `g` have been replaced. -/
theorem nestedCopies_terminates :
    nestedCopies.inlineRounds ≤ 200000 ∧ ∀ beyond,
      Expr.inlineFrom beyond {} 200000 0 [] nestedCopies =
        .binary .mul [.binary .add [.unary .negate (.var "b"), .var "c"],
          .binary .add [.unary .negate (.var "b"), .var "c"]] := by
  have enough : nestedCopies.inlineRounds ≤ 200000 := by decide
  refine ⟨enough, fun beyond => ?_⟩
  have run := Pass.inline_terminates {} nestedCopies beyond enough
  exact (Prod.mk.inj run).1.symm

end Formulary
