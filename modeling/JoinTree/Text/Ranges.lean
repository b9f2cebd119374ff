namespace JoinTree.Text

-- A character property as closed code point intervals in increasing order.
abbrev Ranges := Array (Nat × Nat)

def Ranges.has (table : Ranges) (c : Char) : Bool :=
  table.any fun (low, high) => low ≤ c.toNat && c.toNat ≤ high

end JoinTree.Text
