import Formulary.Expr.Basic
import Formulary.Span

namespace Formulary

/-! Where in the source each tree was read. Equal trees share one entry, that of the tree read
    first. -/

structure SpanMap where
  entries : List (Expr × Span) := []
deriving Inhabited

namespace SpanMap

def empty : SpanMap := {}

def spanOf? (map : SpanMap) (expr : Expr) : Option Span :=
  (map.entries.find? fun entry => entry.1 == expr).map (·.2)

/-- Keep the span of a tree unless it already has one. -/
def record (map : SpanMap) (expr : Expr) (span : Span) : SpanMap :=
  match map.spanOf? expr with
  | some _ => map
  | none => ⟨(expr, span) :: map.entries⟩

def size (map : SpanMap) : Nat := map.entries.length

end SpanMap

end Formulary
