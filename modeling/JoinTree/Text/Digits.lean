namespace JoinTree.Text

def digitsValue (cs : List Char) : Nat := cs.foldl (fun n c => n * 10 + (c.toNat - 48)) 0

-- The value of a text of one or more ASCII digits.
def natural? (cs : List Char) : Option Nat :=
  if !cs.isEmpty && cs.all Char.isDigit then some (digitsValue cs) else none

-- A number below 2^64, perhaps with a plus sign.
def unsigned64? (cs : List Char) : Option Nat :=
  (natural? (if cs.head? = some '+' then cs.tail else cs)).filter (· < 1 <<< 64)

-- A number from -2^63 to 2^63 - 1, perhaps with a sign.
def signed64? (cs : List Char) : Option Int :=
  if cs.head? = some '-' then ((natural? cs.tail).filter (· ≤ 1 <<< 63)).map fun n => -(n : Int)
  else ((natural? (if cs.head? = some '+' then cs.tail else cs)).filter (· < 1 <<< 63)).map Int.ofNat

end JoinTree.Text
