namespace Formulary.Text

/-! Classes of characters as lists of code point ranges, both ends included. -/

abbrev Ranges := List (Nat × Nat)

/-- Ranges from the lengths of the stretches, from `start` on, outside and inside of them in turn. -/
def Ranges.stretchesFrom (start : Nat) : List Nat → Ranges
  | outside :: inside :: rest =>
    (start + outside, start + outside + inside - 1) :: stretchesFrom (start + outside + inside) rest
  | _ => []

def Ranges.ofStretches (lengths : List Nat) : Ranges := stretchesFrom 0 lengths

def Ranges.contains (ranges : Ranges) (c : Char) : Bool :=
  ranges.any fun range => range.1 ≤ c.toNat && c.toNat ≤ range.2

end Formulary.Text
