import Formulary.Expr.Basic
import Formulary.Table
import Formulary.Ty

namespace Formulary

/-! Options of compilation. -/

/-- Limits on putting the bodies of local definitions in place of their calls. -/
structure Inlining where
  enabled : Bool := true
  /-- Bodies with more nodes are left alone. -/
  maxSize : Nat := 64
  /-- Nesting of definitions up to which calls are replaced. -/
  maxDepth : Nat := 16
deriving DecidableEq, Inhabited

structure Options where
  /-- Type of the value of the formula. -/
  expectReturn : Ty := .float64
  /-- Types of the inputs. -/
  inputs : Table Ty := []
  /-- Compile no restriction at all. -/
  ignoreRestrictions : Bool := false
  /-- Allow simplifications that hold on part of the domain only; each adds a restriction. -/
  allowDomainChanges : Bool := false
  /-- Conditions under which the formula has no value. -/
  restrictions : List Expr := []
  /-- Operators whose chains are neither flattened nor reordered, in order of rank. -/
  keptApart : List Operator := []
  inlining : Inlining := {}
  foldLiterals : Bool := true
  flattenChains : Bool := true
  simplifyExponents : Bool := true
deriving Inhabited

namespace Options

/-- Add an operator to those that are kept apart. -/
def insertOperator (op : Operator) : List Operator → List Operator
  | [] => [op]
  | other :: rest =>
    if op.rank < other.rank then op :: other :: rest
    else if op = other then other :: rest
    else other :: insertOperator op rest

def operatorSet (ops : List Operator) : List Operator :=
  ops.foldl (fun set op => insertOperator op set) []

/-- Whether chains of the operator may be flattened and reordered. -/
def combines (options : Options) (op : Operator) : Bool :=
  op.isAssociative && !options.keptApart.contains op

/-- The same options with every simplification switched off. -/
def withoutSimplification (options : Options) : Options :=
  { options with
    inlining := { options.inlining with enabled := false }
    foldLiterals := false
    flattenChains := false
    simplifyExponents := false }

end Options

end Formulary
