import JoinTree.Decimal.Shortest
import JoinTree.Text.Quoted
import JoinTree.Yaml.Document

/-!
What plain scalars mean, and why a node is not what was asked for.
-/

namespace JoinTree.Yaml

-- Integers come in three sizes: those of 64 bits without a sign, those of 64 bits with one, and those of 128 bits.
inductive Meaning where
  | unit
  | boolean (value : Bool)
  | integer (value : Int)
  | wide (value : Int)
  | float (bits : UInt64)
  | text (value : String)
  deriving DecidableEq, Repr

def isNull (cs : List Char) : Bool := ["null","Null","NULL","~"].contains (String.ofList cs)

def boolean? (s : String) : Option Bool :=
  if ["true","True","TRUE"].contains s then some true
  else if ["false","False","FALSE"].contains s then some false
  else none

private def isSign (c : Char) : Bool := c = '+' || c = '-'

-- Digits behind a zero are no number.
def isPaddedDigits (cs : List Char) : Bool :=
  let digits := if cs.head?.any isSign then cs.tail else cs
  digits.length > 1 && digits.head? = some '0' && digits.tail.all Char.isDigit

private def digit? (base : Nat) (c : Char) : Option Nat :=
  let value :=
    if c.isDigit then some (c.toNat - 48)
    else if 'a' ≤ c && c ≤ 'f' then some (c.toNat - 87)
    else if 'A' ≤ c && c ≤ 'F' then some (c.toNat - 55)
    else none
  value.filter (· < base)

def inBase? (base : Nat) (cs : List Char) : Option Nat :=
  if cs.isEmpty then none else (cs.mapM (digit? base)).map fun ds => ds.foldl (fun n d => n * base + d) 0

-- The bases whose numbers are marked.
def bases : List (List Char × Nat) := [(['0','x'],16),(['0','o'],8),(['0','b'],2)]

private def marked? (cs : List Char) : Option (List Char × Nat) :=
  (bases.lookup (cs.take 2)).map fun base => (cs.drop 2,base)

-- A number below the bound. One that a mark for its base makes no sense of is read without the mark, which fails.
def natural? (bound : Nat) (cs : List Char) : Option Nat :=
  let body := if cs.head? = some '+' then cs.tail else cs
  let inMarkedBase := (marked? body).bind fun (digits,base) => (inBase? base digits).filter (· < bound)
  match inMarkedBase with
  | some n => some n
  | none => if isPaddedDigits cs then none else (inBase? 10 body).filter (· < bound)

-- A number with a minus sign whose magnitude is within the bound.
def negative? (bound : Nat) (cs : List Char) : Option Int :=
  match cs with
  | '-' :: body =>
    let inMarkedBase := (marked? body).bind fun (digits,base) => (inBase? base digits).filter (· ≤ bound)
    let magnitude := match inMarkedBase with
      | some n => some n
      | none => if isPaddedDigits cs then none else (inBase? 10 body).filter (· ≤ bound)
    magnitude.map fun n => -(n : Int)
  | _ => none

def integer? (cs : List Char) : Option Meaning :=
  match natural? (1 <<< 64) cs with
  | some n => some (.integer n)
  | none =>
    match negative? (1 <<< 63) cs with
    | some n => some (.integer n)
    | none =>
      match natural? (1 <<< 128) cs with
      | some n => some (.wide n)
      | none => (negative? (1 <<< 127) cs).map .wide

private def infinity : UInt64 := 0x7ff0000000000000

def float? (cs : List Char) : Option UInt64 :=
  let s := String.ofList cs
  let body := if cs.head? = some '+' then cs.tail else cs
  if cs.head? = some '+' && body.head?.any isSign then none
  else if [".inf",".Inf",".INF"].contains (String.ofList body) then some infinity
  else if ["-.inf","-.Inf","-.INF"].contains s then some (Binary64.negate infinity)
  else if [".nan",".NaN",".NAN"].contains s then some 0x7ff8000000000000
  else (Binary64.ofNumeral? body).filter Binary64.isFinite

def Meaning.ofPlain (s : String) : Meaning :=
  let cs := s.toList
  if cs.isEmpty || isNull cs then .unit
  else match boolean? s with
    | some b => .boolean b
    | none =>
      match integer? cs with
      | some m => m
      | none => if isPaddedDigits cs then .text s else ((float? cs).map .float).getD (.text s)

def Meaning.phrase : Meaning → String
  | unit => "unit value"
  | boolean b => s!"boolean \x60{b}\x60"
  | integer n => s!"integer \x60{n}\x60"
  | wide n => s!"integer \x60{n}\x60 as " ++ (if n < 0 then "i128" else "u128")
  | float bits => s!"floating point \x60{Binary64.pointText bits}\x60"
  | text s => s!"string {Text.quoted s}"

-- Tags of the standard types.
def coreTag (name : String) : Octets := .ofText ("tag:yaml.org,2002:" ++ name)

inductive Mismatch where
  | type (found expected : String)
  | value (found expected : String)
  | unknownField (name : String) (known : List String)
  | unknownVariant (name : String) (known : List String)
  | duplicateField (name : String)
  deriving DecidableEq, Repr

private def ticked (names : List String) : String := ", ".intercalate (names.map fun n => s!"\x60{n}\x60")

def Mismatch.text : Mismatch → String
  | type found expected => s!"invalid type: {found}, expected {expected}"
  | value found expected => s!"invalid value: {found}, expected {expected}"
  | unknownField name known => s!"unknown field \x60{name}\x60, expected one of {ticked known}"
  | unknownVariant name known => s!"unknown variant \x60{name}\x60, expected one of {ticked known}"
  | duplicateField name => s!"duplicate field \x60{name}\x60"

namespace Scalar

def hasTag (s : Scalar) (name : String) : Bool := s.tag = some (coreTag name)

private def tagged (s : Scalar) (expected : String) (m : Option Meaning) : Except Mismatch Meaning :=
  match m with
  | some m => .ok m
  | none => .error (.value (Meaning.text s.value).phrase expected)

-- The meaning of a scalar, which a tag can demand.
def meaning (s : Scalar) : Except Mismatch Meaning :=
  let cs := s.value.toList
  match s.tag with
  | none => .ok (if s.style = .plain then .ofPlain s.value else .text s.value)
  | some tag =>
    if s.hasTag "bool" then s.tagged "a boolean" ((boolean? s.value).map .boolean)
    else if s.hasTag "int" then s.tagged "an integer" (integer? cs)
    else if s.hasTag "float" then s.tagged "a float" ((float? cs).map .float)
    else if s.hasTag "null" then s.tagged "null" (if isNull cs then some .unit else none)
    else .ok (if tag.head? = some 33 && s.style = .plain then .ofPlain s.value else .text s.value)

-- Whether the value counts as other than text: it is plain, or a literal with the tag of the type.
def isTyped (s : Scalar) (name : String) : Bool := s.style = .plain || (s.style = .literal && s.hasTag name)

end Scalar

-- Something else was expected in place of the content.
def Content.mismatch (c : Content) (expected : String) : Mismatch :=
  match c with
  | .scalar s =>
    match s.meaning with
    | .ok m => .type m.phrase expected
    | .error m => m
  | .sequence _ => .type "sequence" expected
  | .mapping _ => .type "map" expected

-- Why a text does not give what was asked for. A mismatch has the name of the field, if it lies in one.
inductive Refusal where
  | fault (f : Fault)
  | severalDocuments
  | mismatch (m : Mismatch) (field : Option String) (place : Mark)
  deriving DecidableEq, Repr

def Refusal.message : Refusal → String
  | fault f => f.message
  | severalDocuments => "deserializing from YAML containing more than one document is not supported"
  | mismatch m field place => (field.map (s!"{·}: ")).getD "" ++ m.text ++ place.suffix

end JoinTree.Yaml
