import JoinTree.Settings
import JoinTree.Text.Case
import JoinTree.Tree.Node

/-!
The values of the library as plain data, to be kept or sent: reading them back gives the same value. Names are
written in small letters.
-/

namespace JoinTree

-- Numbers keep apart what is written without a sign, with one, and with a point or an exponent.
inductive Data where
  | null
  | boolean (value : Bool)
  | natural (value : UInt64)
  | negative (value : Int64)
  | float (bits : UInt64)
  | text (value : String)
  | array (items : List Data)
  | object (fields : List (String × Data))
  deriving Repr, Inhabited

namespace Data

def boolean? : Data → Option Bool
  | boolean b => some b
  | _ => none

def natural? : Data → Option UInt64
  | natural n => some n
  | _ => none

def integer? : Data → Option Int64
  | natural n => if n.toNat < 1 <<< 63 then some (.ofNat n.toNat) else none
  | negative n => some n
  | _ => none

-- An integer is a float as well.
def float? : Data → Option UInt64
  | float bits => some bits
  | natural n => some (Binary64.ofFraction n.toNat 1)
  | negative n => some (Binary64.negate (Binary64.ofFraction n.toInt.natAbs 1))
  | _ => none

def text? : Data → Option String
  | text s => some s
  | _ => none

def isNull : Data → Bool
  | null => true
  | _ => false

-- A variant is its name, or an object with what it holds under its name.
def variant? : Data → Option (String × Option Data)
  | text name => some (name,none)
  | object [(name,held)] => some (name,some held)
  | _ => none

-- The name of a variant that holds nothing.
def name? (d : Data) : Option String := do
  let (name,held) ← d.variant?
  if held.all isNull then some name else none

end Data

def Locality.word (l : Locality) : String := Text.lower l.text
def Locality.all : List Locality := [.unspecified,.global,.perShard]
def Locality.ofWord? (s : String) : Option Locality := Locality.all.find? (·.word = s)

def Strictness.word (s : Strictness) : String := Text.lower s.text
def Strictness.every : List Strictness := [.unspecified,.all,.any,.asof,.semi,.anti]
def Strictness.ofWord? (s : String) : Option Strictness := Strictness.every.find? (·.word = s)

def JoinKind.word (k : JoinKind) : String := Text.lower k.text
def JoinKind.all : List JoinKind := [.inner,.left,.right,.full,.cross,.comma,.paste]
def JoinKind.ofWord? (s : String) : Option JoinKind := JoinKind.all.find? (·.word = s)

namespace Data

def ofLocality (l : Locality) : Data := .text l.word
def locality? (d : Data) : Option Locality := d.name?.bind Locality.ofWord?

def ofStrictness (s : Strictness) : Data := .text s.word
def strictness? (d : Data) : Option Strictness := d.name?.bind Strictness.ofWord?

def ofJoinKind (k : JoinKind) : Data := .text k.word
def joinKind? (d : Data) : Option JoinKind := d.name?.bind JoinKind.ofWord?

def ofShortCircuit (p : ShortCircuit) : Data := .text p.text
def shortCircuit? (d : Data) : Option ShortCircuit := d.name?.bind ShortCircuit.ofText?

def ofColumnSource : ColumnSource → Data
  | .table label => .object [("table",.text label)]
  | .using => .text "using"

def columnSource? (d : Data) : Option ColumnSource :=
  match d.variant? with
  | some ("using",held) => if held.all isNull then some .using else none
  | some ("table",some held) => held.text?.map .table
  | _ => none

def ofInt (n : Int64) : Data := if n < 0 then .negative n else .natural (.ofNat n.toInt.toNat)

def ofConstant (c : Constant) : Data :=
  let typed (type : String) (value : List (String × Data)) : Data := .object (("type",.text type) :: value)
  match c with
  | .null => typed "null" []
  | .bool b => typed "bool" [("value",.boolean b)]
  | .int n => typed "int" [("value",ofInt n)]
  | .uint n => typed "uint" [("value",.natural n)]
  | .float bits => typed "float" [("value",.float bits)]
  | .string s => typed "string" [("value",.text s)]

-- A constant of a type from its value. Only null does without one.
private def constantOf? (type : String) (value : Option Data) : Option Constant :=
  match type with
  | "null" => if value.all isNull then some .null else none
  | "bool" => value.bind boolean? |>.map .bool
  | "int" => value.bind integer? |>.map .int
  | "uint" => value.bind natural? |>.map .uint
  | "float" => value.bind float? |>.map .float
  | "string" => value.bind text? |>.map .string
  | _ => none

-- Type and value under their names, beside anything else, or one behind the other.
def constant? : Data → Option Constant
  | object fields => do constantOf? (← (← fields.lookup "type").name?) (fields.lookup "value")
  | array [type,value] => do constantOf? (← type.name?) (some value)
  | _ => none

private def ofSetting (s : Settings) : Setting → Data
  | .compileExpressions => .boolean s.compileExpressions
  | .minCountToCompile => .natural s.minCountToCompile
  | .maxTemporaryColumns => .natural s.maxTemporaryColumns
  | .maxTemporaryNonConstColumns => .natural s.maxTemporaryNonConstColumns
  | .shortCircuit => ofShortCircuit s.shortCircuit
  | .mergeFilters => .boolean s.mergeFilters
  | .splitFilterChain => (s.splitFilterChain.map .boolean).getD .null

def ofSettings (s : Settings) : Data := .object (Setting.all.map fun k => (k.name,ofSetting s k))

private def withSetting? (s : Settings) (k : Setting) (d : Data) : Option Settings :=
  match k with
  | .compileExpressions => d.boolean?.map fun b => { s with compileExpressions := b }
  | .minCountToCompile => d.natural?.map fun n => { s with minCountToCompile := n }
  | .maxTemporaryColumns => d.natural?.map fun n => { s with maxTemporaryColumns := n }
  | .maxTemporaryNonConstColumns => d.natural?.map fun n => { s with maxTemporaryNonConstColumns := n }
  | .shortCircuit => d.shortCircuit?.map fun p => { s with shortCircuit := p }
  | .mergeFilters => d.boolean?.map fun b => { s with mergeFilters := b }
  | .splitFilterChain =>
    if d.isNull then some { s with splitFilterChain := none }
    else d.boolean?.map fun b => { s with splitFilterChain := some b }

-- Settings by their names, or one behind the other in their order. Absent ones have their defaults; whether they go
-- together is not looked at.
def settings? : Data → Option Settings
  | object fields =>
    fields.foldlM (fun s (name,d) => do withSetting? s (← Setting.ofName? name) d) {}
  | array items =>
    if items.length > Setting.all.length then none
    else (Setting.all.zip items).foldlM (fun s (k,d) => withSetting? s k d) {}
  | _ => none

end Data

end JoinTree
