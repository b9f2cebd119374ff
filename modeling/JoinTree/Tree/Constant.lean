import JoinTree.Decimal.Shortest
import JoinTree.Sql.Expr

namespace JoinTree

open Sql

-- Two floats are the same constant if their bits are.
inductive Constant where
  | null
  | bool (value : Bool)
  | int (value : Int64)
  | uint (value : UInt64)
  | float (bits : UInt64)
  | string (value : String)
  deriving DecidableEq, Repr, Inhabited

namespace Constant

def typeText : Constant → String
  | null => "Nullable(Nothing)" | bool _ => "Bool" | int _ => "Int64" | uint _ => "UInt64" | float _ => "Float64"
  | string _ => "String"

-- The constant as a dump shows it.
def text : Constant → String
  | null => "NULL"
  | bool b => toString b
  | int n => toString n.toInt
  | uint n => toString n.toNat
  | float bits => Binary64.text bits
  | string s => s!"'{s}'"

-- A numeral is an integer if it fits 64 bits, signed or else unsigned, and a float otherwise.
def ofNumeral? (digits : List Char) : Option Constant :=
  match Text.signed64? digits with
  | some n => some (int (.ofInt n))
  | none =>
    match Text.unsigned64? digits with
    | some n => some (uint (.ofNat n))
    | none => (Binary64.ofNumeral? digits).map float

def ofLiteral? : Literal → Option Constant
  | .number digits _ => ofNumeral? digits.toList
  | .string s => some (string s)
  | .boolean b => some (bool b)
  | .null => some null
  | .other _ => none

-- The literal that reads back as the constant, a float being finite.
def literal : Constant → Literal
  | null => .null
  | bool b => .boolean b
  | int n => .number (toString n.toInt) false
  | uint n => .number (toString n.toNat) false
  | float bits => .number (Binary64.text bits) false
  | string s => .string s

-- The constant with the opposite sign, if it is a number and 64 bits hold it.
def negated? : Constant → Option Constant
  | int n => if n = Int64.minValue then none else some (int (-n))
  | uint n => if n.toNat ≤ 1 <<< 63 then some (int (.ofInt (-(n.toNat : Int)))) else none
  | float bits => some (float (Binary64.negate bits))
  | _ => none

end Constant

end JoinTree
