import JoinTree.Tree.Error

/-!
What a name can mean inside a join tree. A scope holds the tables of a table expression from left to right, and the
columns that USING joins inside of it have merged. An unqualified name must have one meaning among them.
-/

namespace JoinTree

-- The columns of each table, by its name.
abbrev Catalog := List (String × List String)

namespace Catalog

-- A later entry for a table replaces an earlier one.
def insert (c : Catalog) (name : String) (columns : List String) : Catalog :=
  c.filter (·.1 ≠ name) ++ [(name,columns)]

def ofEntries (entries : List (String × List String)) : Catalog :=
  entries.foldl (fun c e => c.insert e.1 e.2) []

-- A table is known by its full name or else by the last part of it.
def columns? (c : Catalog) (name : String) : Option (List String) := (c.lookup name).or (c.lookup (lastPart name))

end Catalog

structure ScopeTable where
  table : TableName
  columns : List String
  deriving DecidableEq, Repr

namespace ScopeTable

def label (t : ScopeTable) : String := t.table.label
def has (t : ScopeTable) (column : String) : Bool := t.columns.contains column
def column (t : ScopeTable) (name : String) : Node := .column name (.table t.label) none

end ScopeTable

-- A column that stands for one column of each side of a join.
structure UsingColumn where
  name : String
  expression : Option Node
  deriving Repr

namespace UsingColumn

def node (c : UsingColumn) : Node := .column c.name .using c.expression

def ofNode? : Node → Option UsingColumn
  | .column name .using e => some ⟨name,e⟩
  | _ => none

end UsingColumn

-- The label of the table that a column comes from.
def Node.tableLabel? : Node → Option String
  | .column _ (.table label) _ => some label
  | _ => none

namespace UsingColumn

def size (c : UsingColumn) : Nat := 1 + Node.sizeOption c.expression

def stackSize : List UsingColumn → Nat
  | [] => 0
  | c :: cs => c.size + stackSize cs

theorem stackSize_append (cs ds : List UsingColumn) : stackSize (cs ++ ds) = stackSize cs + stackSize ds := by
  induction cs with
  | nil => exact (Nat.zero_add _).symm
  | cons c cs ih => rw [List.cons_append,stackSize,stackSize,ih,Nat.add_assoc]

theorem stackSize_reverse (cs : List UsingColumn) : stackSize cs.reverse = stackSize cs := by
  induction cs with
  | nil => rfl
  | cons c cs ih =>
    rw [List.reverse_cons,stackSize_append,ih,stackSize,stackSize,stackSize]
    omega

-- The sides of a merged column that are merged themselves.
def mergedSides (sides : List Node) : List UsingColumn := sides.filterMap ofNode?

theorem stackSize_sides (sides : List Node) : stackSize (mergedSides sides) ≤ Node.sizeList sides := by
  induction sides with
  | nil => exact Nat.le_refl 0
  | cons n sides ih =>
    cases kind : ofNode? n with
    | none =>
      rw [mergedSides,List.filterMap_cons_none kind,Node.sizeList]
      exact Nat.le_add_left_of_le ih
    | some c =>
      have whole : n.size = c.size := by
        cases n with
        | column name source e => cases source <;> cases kind; rfl
        | _ => cases kind
      rw [mergedSides,List.filterMap_cons_some kind,Node.sizeList,whole]
      exact Nat.add_le_add_left ih _

-- The labels of the tables that the columns on a stack merge. The sides that are merged themselves go on the stack, the
-- last one on top.
@[semireducible] def mergedTables : List UsingColumn → List String
  | [] => []
  | c :: stack =>
    match _h : c.expression with
    | some (.list sides) => sides.filterMap Node.tableLabel? ++ mergedTables ((mergedSides sides).reverse ++ stack)
    | _ => mergedTables stack
termination_by cs => stackSize cs
decreasing_by
  · have := stackSize_sides sides
    simp only [stackSize,stackSize_append,stackSize_reverse,size,_h,Node.sizeOption,Node.size]
    omega
  · simp only [stackSize,size]
    omega

end UsingColumn

structure Scope where
  tables : List ScopeTable := []
  usingColumns : List UsingColumn := []
  deriving Repr, Inhabited

namespace Scope

def labels (s : Scope) : List String := s.tables.map ScopeTable.label

-- A merged column hides an earlier one of its name.
def addUsing (s : Scope) (c : UsingColumn) : Scope :=
  { s with usingColumns := s.usingColumns.filter (·.name ≠ c.name) ++ [c] }

def addAllUsing (s : Scope) (cs : List UsingColumn) : Scope := cs.foldl addUsing s

-- The scope of two table expressions side by side.
def merge (left right : Scope) : Scope :=
  { left with tables := left.tables ++ right.tables }.addAllUsing right.usingColumns

def describe (s : Scope) : String := "scope of [" ++ ", ".intercalate s.labels ++ "]"

-- The one table of a list, or the reason why there is not one.
def single (identifier place : String) : List ScopeTable → Except AnalysisError ScopeTable
  | [] => .error (.unresolved identifier place)
  | [t] => .ok t
  | ts => .error (.ambiguous identifier (ts.map ScopeTable.label))

-- The column that an unqualified name means. A merged column stands for those it merged; any other table that has a
-- column of the name is a second candidate. `place` is what messages call the scope.
def resolveName (s : Scope) (place name : String) : Except AnalysisError Node :=
  match s.usingColumns.find? (·.name = name) with
  | none => do return (← single name place (s.tables.filter (·.has name))).column name
  | some c =>
    let merged := UsingColumn.mergedTables [c]
    let others := s.tables.filter fun t => t.has name && !merged.contains t.label
    if others.isEmpty then .ok c.node
    else .error (.ambiguous name (ColumnSource.using.text :: others.map ScopeTable.label))

-- The column that an identifier means. A qualified name never means a merged column.
def resolve (s : Scope) (parts : List String) : Except AnalysisError Node :=
  let name := Identifier.short parts
  if Identifier.isCompound parts then do
    let candidates := s.tables.filter fun t => t.table.matchesQualifier (Identifier.qualifier parts) && t.has name
    return (← single (Identifier.full parts) s.describe candidates).column name
  else s.resolveName s.describe name

end Scope

end JoinTree
