import Formulary.Document.Formula
import Formulary.Options

namespace Formulary

/-! Options of compilation as documents. -/

open Document (orDefault)

def Inlining.ofDocument? (document : Document) : Option Inlining := do
  let default : Inlining := {}
  match ← document.record? ["enabled", "max_size", "max_depth"] with
  | [enabled, maxSize, maxDepth] =>
    return {
      enabled := ← orDefault default.enabled Document.bool? enabled
      maxSize := ← orDefault default.maxSize Document.nat? maxSize
      maxDepth := ← orDefault default.maxDepth Document.nat? maxDepth }
  | _ => none

def Inlining.toDocument (inlining : Inlining) : Document :=
  .fields [("enabled", .bool inlining.enabled), ("max_size", .integer inlining.maxSize),
    ("max_depth", .integer inlining.maxDepth)]

namespace Options

def fieldNames : List String :=
  ["expect_return", "inputs", "ignore_domain_restrictions",
   "allow_domain_changing_optimizations", "domain_restrictions", "ignore_commutativity_for",
   "inlining", "enable_literal_folding", "enable_binary_combining",
   "enable_exponent_simplification"]

def ofDocument? (document : Document) : Option Options := do
  let default : Options := {}
  match ← document.record? fieldNames with
  | [expectReturn, inputs, ignore, allow, restrictions, keptApart, inlining, fold, flatten,
      exponents] =>
      return {
        expectReturn := ← orDefault default.expectReturn Ty.ofDocument? expectReturn
        inputs := ← orDefault default.inputs (Document.table? Ty.ofDocument?) inputs
        ignoreRestrictions := ← orDefault default.ignoreRestrictions Document.bool? ignore
        allowDomainChanges := ← orDefault default.allowDomainChanges Document.bool? allow
        restrictions := ←
          orDefault default.restrictions (Document.list? Expr.ofDocument?) restrictions
        keptApart := operatorSet
          (← orDefault default.keptApart (Document.list? Operator.ofDocument?) keptApart)
        inlining := ← orDefault default.inlining Inlining.ofDocument? inlining
        foldLiterals := ← orDefault default.foldLiterals Document.bool? fold
        flattenChains := ← orDefault default.flattenChains Document.bool? flatten
        simplifyExponents := ← orDefault default.simplifyExponents Document.bool? exponents }
  | _ => none

def toDocument (options : Options) : Document :=
  .fields [
    ("expect_return", options.expectReturn.toDocument),
    ("inputs", .fields (options.inputs.map fun (name, ty) => (name, ty.toDocument))),
    ("ignore_domain_restrictions", .bool options.ignoreRestrictions),
    ("allow_domain_changing_optimizations", .bool options.allowDomainChanges),
    ("domain_restrictions", .list (options.restrictions.map Expr.toDocument)),
    ("ignore_commutativity_for", .list (options.keptApart.map Operator.toDocument)),
    ("inlining", options.inlining.toDocument),
    ("enable_literal_folding", .bool options.foldLiterals),
    ("enable_binary_combining", .bool options.flattenChains),
    ("enable_exponent_simplification", .bool options.simplifyExponents)]

end Options

end Formulary
