import JoinTree.Note
import JoinTree.Resolution.Scope
import JoinTree.Tree.Surface

/-!
Binding the identifiers of a join tree to columns. Both sides of a join come first, then its join expression. A fault
stops the work and leaves what was bound before it: resolving the tree again then comes to the same end.
-/

namespace JoinTree

-- An identifier and the column that took its place.
inductive Binding where
  | shared (name : String)
  | single (parts : List String) (column : Node)
  deriving Repr

def Binding.note : Binding → Note
  | shared name => ⟨.trace, s!"Resolved USING column '{name}'"⟩
  | single parts column => ⟨.trace, s!"Resolved identifier '{Identifier.full parts}' to {column.text}"⟩

-- A part of a tree after a visit: what became of it, its bindings in the order of the visit, and the fault that
-- ended it early.
structure Visited (α : Type) where
  value : α
  bindings : List Binding := []
  fault : Option AnalysisError := none

namespace Visited

def map (f : α → β) (v : Visited α) : Visited β := ⟨f v.value,v.bindings,v.fault⟩

-- Visits a second part, unless a fault in the first leaves that as it is.
def andThen (v : Visited α) (second : β) (visit : Unit → Visited β) : Visited (α × β) :=
  match v.fault with
  | some _ => ⟨(v.value,second),v.bindings,v.fault⟩
  | none => let w := visit (); ⟨(v.value,w.value),v.bindings ++ w.bindings,w.fault⟩

end Visited

namespace Node

-- The identifiers of an ON expression. What stands last is visited first, and nothing below a column.
mutual
def bindNames (s : Scope) : Node → Visited Node
  | identifier parts =>
    match s.resolve parts with
    | .ok c => ⟨c,[.single parts c],none⟩
    | .error e => ⟨identifier parts,[],some e⟩
  | n@(constant _) | n@(column ..) | n@(table ..) => ⟨n,[],none⟩
  | function name args => (bindNames s args).map (function name)
  | list nodes => (bindAllNames s nodes).map list
  | join spec l r e =>
    (((bindSlotNames s e).andThen r fun _ => bindNames s r).andThen l fun _ => bindNames s l).map
      fun ((e,r),l) => join spec l r e
  | runtimeFilter id c => (bindNames s c).map (runtimeFilter id)
def bindAllNames (s : Scope) : List Node → Visited (List Node)
  | [] => ⟨[],[],none⟩
  | n :: ns => ((bindAllNames s ns).andThen n fun _ => bindNames s n).map fun (ns,n) => n :: ns
def bindSlotNames (s : Scope) : Option Node → Visited (Option Node)
  | none => ⟨none,[],none⟩
  | some n => (bindNames s n).map some
end

-- One entry of a USING list: a name that both sides have, or a column that has been merged before.
def bindUsingEntry (left right : Scope) (n : Node) : Visited Node :=
  match n with
  | column _ .using _ => ⟨n,[],none⟩
  | identifier parts =>
    if Identifier.isCompound parts then ⟨n,[],some (n.misplaced .unresolvableColumn)⟩
    else
      let name := Identifier.short parts
      let sides := do
        return (← left.resolveName "left table expression" name,← right.resolveName "right table expression" name)
      match sides with
      | .ok (l,r) => ⟨usingColumn name l r,[.shared name],none⟩
      | .error e => ⟨n,[],some e⟩
  | n => ⟨n,[],some (n.misplaced .unresolvableColumn)⟩

def bindUsing (left right : Scope) : List Node → Visited (List Node)
  | [] => ⟨[],[],none⟩
  | n :: ns => ((bindUsingEntry left right n).andThen ns fun _ => bindUsing left right ns).map fun (n,ns) => n :: ns

end Node

-- The scope of a join whose two sides have the given ones, and its join expression after the visit.
def bindConstraint (left right : Scope) : Option Node → Visited (Option Node) × Scope
  | none => (⟨none,[],none⟩,left.merge right)
  | some (.list nodes) =>
    let v := Node.bindUsing left right nodes
    (v.map fun ns => some (.list ns),(left.merge right).addAllUsing (v.value.filterMap UsingColumn.ofNode?))
  | some e => ((Node.bindNames (left.merge right) e).map some,left.merge right)

-- A tree after resolution, and its scope if all of it could be resolved.
structure Resolution where
  tree : Node
  bindings : List Binding
  outcome : Except AnalysisError Scope

namespace Resolution

def ofTable (c : Catalog) (t : TableName) : Resolution :=
  { tree := .table t.name t.asName
    bindings := []
    outcome :=
      match c.columns? t.name with
      | some columns => .ok ⟨[⟨t,columns⟩],[]⟩
      | none => .error (.unknownTable t.name) }

def ofJoin (spec : JoinSpec) (left : Resolution) (r : Node) (right : Unit → Resolution) (e : Option Node) : Resolution :=
  match left.outcome with
  | .error fault => ⟨.join spec left.tree r e,left.bindings,.error fault⟩
  | .ok leftScope =>
    let right := right ()
    match right.outcome with
    | .error fault => ⟨.join spec left.tree right.tree e,left.bindings ++ right.bindings,.error fault⟩
    | .ok rightScope =>
      let (v,scope) := bindConstraint leftScope rightScope e
      { tree := .join spec left.tree right.tree v.value
        bindings := left.bindings ++ right.bindings ++ v.bindings
        outcome := match v.fault with | some fault => .error fault | none => .ok scope }

def notes (r : Resolution) : List Note := r.bindings.map Binding.note

end Resolution

-- A tree with its identifiers bound to the columns of a catalog.
def Node.resolve (c : Catalog) : Node → Resolution
  | .table name asName => .ofTable c ⟨name,asName⟩
  | .join spec l r e => .ofJoin spec (l.resolve c) r (fun _ => r.resolve c) e
  | n => ⟨n,[],.error (n.misplaced .tableSlot)⟩

end JoinTree
