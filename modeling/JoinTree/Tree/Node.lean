import JoinTree.Clause.Kind
import JoinTree.Tree.Constant

/-!
Query trees. A node has a type, scalars and child slots; a slot may be empty. Everything that compares, hashes, dumps
or edits trees sees a node through these three.
-/

namespace JoinTree

-- Where a column comes from: the table with a label, or both sides of a USING join.
inductive ColumnSource where
  | table (label : String)
  | using
  deriving DecidableEq, Repr, Inhabited

def ColumnSource.text : ColumnSource → String
  | table label => label
  | .using => "USING"

structure JoinSpec where
  locality : Locality := .unspecified
  strictness : Strictness := .unspecified
  kind : JoinKind := .inner
  deriving DecidableEq, Repr, Inhabited

-- The third child of a join is its join expression: a list of columns for USING, any other node for ON.
inductive Node where
  | identifier (parts : List String)
  | constant (value : Constant)
  | column (name : String) (source : ColumnSource) (expression : Option Node)
  | function (name : String) (arguments : Node)
  | list (nodes : List Node)
  | table (name : String) (asName : Option String)
  | join (spec : JoinSpec) (left right : Node) (expression : Option Node)
  | runtimeFilter (id : UInt64) (column : Node)
  deriving Repr, Inhabited

inductive NodeType where
  | identifier | constant | column | function | list | table | join | runtimeFilter
  deriving DecidableEq, Repr

def NodeType.text : NodeType → String
  | identifier => "IDENTIFIER" | constant => "CONSTANT" | column => "COLUMN" | function => "FUNCTION" | list => "LIST"
  | table => "TABLE" | join => "JOIN" | runtimeFilter => "RUNTIME_FILTER"

-- What a node holds besides its type and its children.
inductive Scalars where
  | identifier (parts : List String)
  | constant (value : Constant)
  | column (name : String) (source : ColumnSource)
  | function (name : String)
  | list
  | table (name : String) (asName : Option String)
  | join (spec : JoinSpec)
  | runtimeFilter (id : UInt64)
  deriving DecidableEq, Repr

namespace Node

def type : Node → NodeType
  | identifier .. => .identifier | constant .. => .constant | column .. => .column | function .. => .function
  | list .. => .list | table .. => .table | join .. => .join | runtimeFilter .. => .runtimeFilter

def scalars : Node → Scalars
  | identifier parts => .identifier parts
  | constant value => .constant value
  | column name source _ => .column name source
  | function name _ => .function name
  | list _ => .list
  | table name asName => .table name asName
  | join spec _ _ _ => .join spec
  | runtimeFilter id _ => .runtimeFilter id

-- The child slots in order. A column always has one, a join three.
def slots : Node → List (Option Node)
  | identifier _ | constant _ | table _ _ => []
  | column _ _ e => [e]
  | function _ args => [some args]
  | list nodes => nodes.map some
  | join _ l r e => [some l, some r, e]
  | runtimeFilter _ c => [some c]

-- The children that are there.
def children (n : Node) : List Node := n.slots.filterMap id

def isTableExpression : Node → Bool
  | table .. | join .. => true
  | _ => false

-- The number of nodes.
mutual
def size : Node → Nat
  | identifier _ | constant _ | table _ _ => 1
  | column _ _ e => 1 + sizeOption e
  | function _ args => 1 + args.size
  | list nodes => 1 + sizeList nodes
  | join _ l r e => 1 + l.size + r.size + sizeOption e
  | runtimeFilter _ c => 1 + c.size
def sizeList : List Node → Nat
  | [] => 0
  | n :: ns => n.size + sizeList ns
def sizeOption : Option Node → Nat
  | none => 0
  | some n => n.size
end

-- Construction.

def ident (name : String) : Node := .identifier [name]
def call (name : String) (args : List Node) : Node := .function name (.list args)

-- A USING column stands for one column of each side.
def usingColumn (name : String) (left right : Node) : Node := .column name .using (some (.list [left, right]))

-- The arguments of a function. A function whose argument child is no list has none.
def argumentsOf : Node → List Node
  | .list nodes => nodes
  | _ => []

end Node

-- Names.

namespace Identifier

def short (parts : List String) : String := parts.getLast?.getD ""
def qualifier (parts : List String) : List String := parts.dropLast
def isCompound (parts : List String) : Bool := parts.length > 1
def full (parts : List String) : String := ".".intercalate parts

end Identifier

-- The part of a dotted name behind its last dot.
def lastPart (name : String) : String :=
  .ofList (name.toList.reverse.takeWhile (· ≠ '.')).reverse

-- A table leaf without its place in a tree.
structure TableName where
  name : String
  asName : Option String := none
  deriving DecidableEq, Repr, Inhabited

namespace TableName

-- The name under which columns of the table are known.
def label (t : TableName) : String := t.asName.getD t.name

-- Whether a qualifier names the table: by its alias, or without one by its full name or the last part of that.
def matchesQualifier (t : TableName) (qualifier : List String) : Bool :=
  let joined := ".".intercalate qualifier
  match t.asName with
  | some a => joined = a
  | none => joined = t.name || joined = lastPart t.name

end TableName

end JoinTree
