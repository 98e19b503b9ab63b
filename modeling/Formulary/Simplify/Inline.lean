import Formulary.Expr.Scope
import Formulary.Options

namespace Formulary

open scoped Powers

/-! Putting the bodies of local definitions in place of their calls. A definition disappears
    when none of its calls is left. The body of a definition sees its own parameters and the
    inputs, never the parameters around it, so a call stays where a name would be captured. -/

/-- Whether two lists of names have no name in common. -/
def disjointNames (names others : List String) : Bool := names.all fun name => !others.contains name

namespace Expr

mutual

/-- Put trees in place of variables. Bodies of definitions inside have variables of their own
    and are left alone. -/
def substitute (bindings : List (String × Expr)) : Expr → Expr
  | number value => number value
  | text content => text content
  | var name => (bindings.lookup name).getD (var name)
  | unary op operand => unary op (substitute bindings operand)
  | binary op operands => binary op (substituteAll bindings operands)
  | member target name => member (substitute bindings target) name
  | call name arguments primed => call name (substituteAll bindings arguments) primed
  | define name parameters body value => define name parameters body (substitute bindings value)

def substituteAll (bindings : List (String × Expr)) : List Expr → List Expr
  | [] => []
  | expr :: rest => substitute bindings expr :: substituteAll bindings rest

end

end Expr

namespace Definition

/-- The body with arguments in place of the parameters; of equal parameters the last counts. -/
def instantiate (definition : Definition) (arguments : List Expr) : Expr :=
  definition.body.substitute (definition.parameters.zip arguments).reverse

/-- Whether an argument calls a function that the body defines anew. -/
def captures (definition : Definition) (arguments : List Expr) : Bool :=
  arguments.any fun argument => !disjointNames argument.callees definition.body.definitions

/-- Whether the definition, or a function its body calls, is defined anew by `name`. -/
def shadowedBy (definition : Definition) (name : String) : Bool :=
  name == definition.name || definition.body.callees.contains name

mutual

/-- Replace the primed calls of a definition by its body. -/
def replaceCalls (definition : Definition) : Expr → Expr
  | .number value => .number value
  | .text content => .text content
  | .var name => .var name
  | .unary op operand => .unary op (replaceCalls definition operand)
  | .binary op operands => .binary op (replaceCallsAll definition operands)
  | .member target name => .member (replaceCalls definition target) name
  | .call name arguments primed =>
    let replaced := replaceCallsAll definition arguments
    if primed && name == definition.name &&
        arguments.length == definition.parameters.length &&
        !definition.captures replaced then
      definition.instantiate replaced
    else .call name replaced primed
  | .define name parameters body value =>
    if definition.shadowedBy name then .define name parameters body value
    else if disjointNames parameters definition.free then
      .define name parameters (replaceCalls definition body) (replaceCalls definition value)
    else .define name parameters body (replaceCalls definition value)

def replaceCallsAll (definition : Definition) : List Expr → List Expr
  | [] => []
  | expr :: rest => replaceCalls definition expr :: replaceCallsAll definition rest

end

/-- Whether the calls of a definition may be replaced below `depth` kept definitions with the
    parameters `bound`: it is not too deep, not too large, not recursive, and none of its
    variables means a parameter here. -/
def replaceable (definition : Definition) (limits : Inlining) (depth : Nat)
    (bound : List String) : Bool :=
  depth < limits.maxDepth && definition.body.size ≤ limits.maxSize &&
    definition.body.countCalls definition.name == 0 && disjointNames definition.free bound

end Definition

namespace Expr

mutual

/-- Inline the definitions of a tree. `again` treats trees that came out of a replacement. -/
def inlineWith (again : Nat → List String → Expr → Expr) (limits : Inlining) (depth : Nat)
    (bound : List String) : Expr → Expr
  | number value => number value
  | text content => text content
  | var name => var name
  | unary op operand => unary op (inlineWith again limits depth bound operand)
  | binary op operands => binary op (inlineAllWith again limits depth bound operands)
  | member target name => member (inlineWith again limits depth bound target) name
  | call name arguments primed =>
    call name (inlineAllWith again limits depth bound arguments) primed
  | define name parameters body value =>
    let definition : Definition := ⟨name, parameters, body⟩
    let inside := parameters ++ bound
    if definition.replaceable limits depth bound then
      let replaced := definition.replaceCalls value
      if replaced.countCalls name == 0 then again depth bound replaced
      else define name parameters (inlineWith again limits (depth + 1) inside body)
        (again (depth + 1) inside replaced)
    else define name parameters (inlineWith again limits (depth + 1) inside body)
      (inlineWith again limits (depth + 1) inside value)

def inlineAllWith (again : Nat → List String → Expr → Expr) (limits : Inlining) (depth : Nat)
    (bound : List String) : List Expr → List Expr
  | [] => []
  | expr :: rest =>
    inlineWith again limits depth bound expr :: inlineAllWith again limits depth bound rest

end

/-- Inline with at most `rounds` replacements on the way to any part of the result. -/
def inlineWithin (limits : Inlining) : Nat → Nat → List String → Expr → Expr
  | 0, _, _, expr => expr
  | rounds + 1, depth, bound, expr =>
    inlineWith (inlineWithin limits rounds) limits depth bound expr

/-- Bound on the replacements on the way to any part of the result: each body that is put in
    place adds at most as many definitions as it is large, and calls only definitions made
    before it. -/
def inlineRounds (expr : Expr) : Nat := (expr.size + 2) ^ (expr.definitions.length + 1)

def inline (limits : Inlining) (expr : Expr) : Expr :=
  inlineWithin limits expr.inlineRounds 0 [] expr

end Expr

end Formulary
