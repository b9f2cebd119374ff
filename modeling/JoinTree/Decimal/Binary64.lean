import JoinTree.Text.Digits

/-!
Double precision numbers as their 64 bits: the value a bit pattern stands for, and the nearest bit pattern of a
decimal numeral.
-/

namespace JoinTree.Binary64

def signBit : UInt64 := 0x8000000000000000

def isNegative (bits : UInt64) : Bool := bits ≥ signBit

def negate (bits : UInt64) : UInt64 := bits ^^^ signBit

def exponentField (bits : UInt64) : Nat := (bits.toNat >>> 52) % 1 <<< 11
def fractionField (bits : UInt64) : Nat := bits.toNat % 1 <<< 52

def isFinite (bits : UInt64) : Bool := exponentField bits < 2047
def isNaN (bits : UInt64) : Bool := exponentField bits = 2047 && fractionField bits ≠ 0

-- A finite number is `mantissa * 2 ^ (exponent - 1074)`.
structure Magnitude where
  mantissa : Nat
  exponent : Nat
  deriving DecidableEq, Repr

def magnitude (bits : UInt64) : Magnitude :=
  match exponentField bits with
  | 0 => ⟨fractionField bits, 0⟩
  | e + 1 => ⟨1 <<< 52 + fractionField bits, e⟩

-- Numerator and denominator of `mantissa * 2 ^ (exponent - 1074)`.
def Magnitude.fraction (m : Magnitude) : Nat × Nat :=
  if m.exponent ≥ 1074 then (m.mantissa <<< (m.exponent - 1074), 1) else (m.mantissa, 1 <<< (1074 - m.exponent))

private def roundedQuotient (num den : Nat) : Nat :=
  let q := num / den
  let r := num % den
  if 2 * r > den || (2 * r = den && q % 2 = 1) then q + 1 else q

-- The bits of the number nearest to `num / den`, the even one of two; too large a number is infinite.
def ofFraction (num den : Nat) : UInt64 :=
  if num = 0 then 0 else
  -- The quotient lies between 2 ^ (k - 1) and 2 ^ (k + 1).
  let k : Int := (num.log2 : Int) - (den.log2 : Int)
  let isLess : Bool := if k ≥ 0 then num < den <<< k.toNat else num <<< (-k).toNat < den
  let top : Int := if isLess then k - 1 else k
  -- The unit of the last place is 2 ^ (unit - 1074).
  let unit : Nat := (top - 52 + 1074).toNat
  let mantissa := if unit ≥ 1074 then roundedQuotient num (den <<< (unit - 1074))
    else roundedQuotient (num <<< (1074 - unit)) den
  let bits := if unit = 0 then mantissa else unit <<< 52 + mantissa
  UInt64.ofNat (min bits (2047 <<< 52))

-- The bits of `digits * 10 ^ exponent`.
def ofDecimal (digits : Nat) (exponent : Int) : UInt64 :=
  if digits = 0 then 0
  else if exponent ≥ 0 then
    -- A number this large is infinite.
    if exponent > 400 then UInt64.ofNat (2047 <<< 52) else ofFraction (digits * Nat.pow 10 exponent.toNat) 1
  else
    let scale := (-exponent).toNat
    -- A number this small is nearest to zero.
    if scale > (Nat.toDigits 10 digits).length + 400 then 0 else ofFraction digits (Nat.pow 10 scale)

private def exponentOf? : List Char → Option Int
  | '-' :: cs => (Text.natural? cs).map fun n => -(n : Int)
  | '+' :: cs => (Text.natural? cs).map Int.ofNat
  | cs => (Text.natural? cs).map Int.ofNat

def unsignedNumeral? (cs : List Char) : Option UInt64 := do
  let mantissa := cs.takeWhile fun c => c ≠ 'e' && c ≠ 'E'
  let exponent ← match cs.drop mantissa.length with
    | [] => some 0
    | _ :: e => exponentOf? e
  let whole := mantissa.takeWhile (· ≠ '.')
  let fraction := (mantissa.drop whole.length).drop 1
  let digits ← Text.natural? (whole ++ fraction)
  return ofDecimal digits (exponent - fraction.length)

-- The bits of a numeral: digits with at most one point among them, perhaps with a sign and an exponent.
def ofNumeral? : List Char → Option UInt64
  | '-' :: cs => (unsignedNumeral? cs).map negate
  | '+' :: cs => unsignedNumeral? cs
  | cs => unsignedNumeral? cs

end JoinTree.Binary64
