import JoinTree.Decimal.Binary64

/-!
The decimal text of a double precision number with the fewest digits that read back as it.
-/

namespace JoinTree.Binary64

-- The numbers that round to a magnitude, as fractions over one denominator, and the magnitude itself.
structure RoundingInterval where
  low : Nat
  value : Nat
  high : Nat
  denominator : Nat
  -- Both ends round to an even mantissa.
  closed : Bool

def Magnitude.interval (m : Magnitude) : RoundingInterval :=
  let (num, den) := m.fraction
  -- In quarters of the last place, which is `unit / (4 * den)`.
  let unit := if m.exponent ≥ 1074 then 1 <<< (m.exponent - 1074) else 1
  let below := if m.mantissa = 1 <<< 52 && m.exponent > 0 then unit else 2 * unit
  ⟨4 * num - below, 4 * num, 4 * num + 2 * unit, 4 * den, m.mantissa % 2 = 0⟩

namespace RoundingInterval

def has (i : RoundingInterval) (num den : Nat) : Bool :=
  let x := num * i.denominator
  if i.closed then i.low * den ≤ x && x ≤ i.high * den else i.low * den < x && x < i.high * den

-- The least `e` with `value < 10 ^ e`, found from an estimate that is at most a few too low.
def decimalExponent (i : RoundingInterval) : Int :=
  let bits : Int := (i.value.log2 : Int) - (i.denominator.log2 : Int)
  raise 6 ((bits - 1) * 30103 / 100000 - 1)
where
  isBelow (e : Int) : Bool :=
    if e ≥ 0 then i.value < i.denominator * Nat.pow 10 e.toNat else i.value * Nat.pow 10 (-e).toNat < i.denominator
  raise : Nat → Int → Int
    | 0, e => e
    | n + 1, e => if isBelow e then e else raise n (e + 1)

-- The point of the grid `10 ^ place` that reads back, the nearer one of two, the upper one of two equally near.
def onGrid? (i : RoundingInterval) (place : Int) : Option Nat :=
  let (scaleNum, scaleDen) : Nat × Nat := if place ≥ 0 then (Nat.pow 10 place.toNat, 1) else (1, Nat.pow 10 (-place).toNat)
  let num := i.value * scaleDen
  let den := i.denominator * scaleNum
  let below := num / den
  let rest := num % den
  let fits (k : Nat) : Bool := i.has (k * scaleNum) scaleDen
  match fits below, fits (below + 1) with
  | true, true => some (if rest = 0 || 2 * rest < den then below else below + 1)
  | true, false => some below
  | false, true => some (below + 1)
  | false, false => none

def searchFrom (i : RoundingInterval) (top : Int) : (grids : Nat) → Nat → Nat × Int
  | 0, n => (i.value / i.denominator, top - n)
  | g + 1, n =>
    match i.onGrid? (top - n) with
    | some k => (k, top - n)
    | none => searchFrom i top g (n + 1)

-- The digits as a number, and the power of ten of the last of them.
def shortest (i : RoundingInterval) : Nat × Int := i.searchFrom i.decimalExponent 17 1

end RoundingInterval

private def zeros (n : Nat) : List Char := List.replicate n '0'

-- A point always stands in positional notation.
def positional (digits : List Char) (exponent : Int) : List Char :=
  if exponent ≤ 0 then '0' :: '.' :: zeros (-exponent).toNat ++ digits
  else
    let n := exponent.toNat
    if digits.length ≤ n then digits ++ zeros (n - digits.length) ++ ['.', '0']
    else digits.take n ++ '.' :: digits.drop n

def scientific (digits : List Char) (exponent : Int) : List Char :=
  let point := match digits with
    | d :: e :: ds => d :: '.' :: e :: ds
    | ds => ds
  point ++ 'e' :: (toString (exponent - 1)).toList

private def trailingZeros : Nat → Nat → Nat × Nat
  | 0, n => (n, 0)
  | fuel + 1, n => if n ≠ 0 && n % 10 = 0 then let (m, k) := trailingZeros fuel (n / 10); (m, k + 1) else (n, 0)

-- The digits of a magnitude without zeros at the end, and the power of ten of a point in front of them.
def significand (m : Magnitude) : List Char × Int :=
  let (k, place) := m.interval.shortest
  let (k, more) := trailingZeros 20 k
  let digits := Nat.toDigits 10 k
  (digits, place + more + digits.length)

def textBy (finite : List Char → Int → List Char) (bits : UInt64) : String :=
  let sign := if isNegative bits then "-" else ""
  if isNaN bits then "NaN"
  else if !isFinite bits then sign ++ "inf"
  else
    let m := magnitude bits
    if m.mantissa = 0 then sign ++ "0.0"
    else
      let (digits, exponent) := significand m
      sign ++ .ofList (finite digits exponent)

-- Numbers from 10 ^ 16 on and below 10 ^ -4 have an exponent, all others a point.
def text (bits : UInt64) : String :=
  textBy (fun digits e => if -3 ≤ e && e ≤ 16 then positional digits e else scientific digits e) bits

-- A point however large or small the number is.
def pointText (bits : UInt64) : String := textBy positional bits

end JoinTree.Binary64
