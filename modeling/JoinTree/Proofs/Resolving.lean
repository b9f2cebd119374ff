import JoinTree.Proofs.Outcome
import JoinTree.Resolution

/-!
What a resolution leaves behind. Main statement: resolving the tree that is left again changes nothing and ends the
same way, with the same scope or at the same fault.
-/

namespace JoinTree

-- A second visit of what the first one left changes nothing, and ends the same way.
structure Visited.Settles (visit : α → Visited α) (a : α) : Prop where
  value : (visit (visit a).value).value = (visit a).value
  fault : (visit (visit a).value).fault = (visit a).fault

namespace Visited

@[simp] theorem map_value (f : α → β) (v : Visited α) : (v.map f).value = f v.value := rfl
@[simp] theorem map_fault (f : α → β) (v : Visited α) : (v.map f).fault = v.fault := rfl

theorem andThen_value (v : Visited α) (b : β) (visit : Unit → Visited β) :
    (v.andThen b visit).value = (v.value,if v.fault.isSome then b else (visit ()).value) := by
  unfold andThen
  split <;> rename_i fault <;> rw [fault] <;> rfl

theorem andThen_fault (v : Visited α) (b : β) (visit : Unit → Visited β) :
    (v.andThen b visit).fault = v.fault.or (visit ()).fault := by
  unfold andThen
  split <;> rename_i fault <;> rw [fault] <;> rfl

-- Two visits, one behind the other.
def both (first : α → Visited α) (second : β → Visited β) (p : α × β) : Visited (α × β) :=
  (first p.1).andThen p.2 fun _ => second p.2

theorem both_done {f : α → Visited α} {g : β → Visited β} (done : (both f g p).fault = none) :
    (f p.1).fault = none ∧ (g p.2).fault = none ∧ (both f g p).value = ((f p.1).value,(g p.2).value) := by
  have faults : (f p.1).fault.or (g p.2).fault = none := (andThen_fault _ _ _).symm.trans done
  obtain ⟨first,second⟩ := Option.or_eq_none_iff.mp faults
  exact ⟨first,second,by rw [both,andThen_value,first]; rfl⟩

theorem both_settles (first : Settles f a) (second : Settles g b) : Settles (both f g) (a,b) := by
  have value : (both f g (a,b)).value = ((f a).value,if (f a).fault.isSome then b else (g b).value) := andThen_value _ _ _
  have fault : (both f g (a,b)).fault = (f a).fault.or (g b).fault := andThen_fault _ _ _
  cases ended : (f a).fault with
  | some e =>
    rw [ended] at value fault
    constructor
    · rw [value,both,andThen_value]
      simp [first.value,first.fault,ended]
    · rw [value,both,andThen_fault]
      simp [first.fault,ended,fault]
  | none =>
    rw [ended] at value fault
    constructor
    · rw [value,both,andThen_value]
      simp [first.value,first.fault,ended,second.value]
    · rw [value,both,andThen_fault]
      simp [first.fault,ended,fault,second.fault]

-- The visit of a whole is the visit of its parts.
theorem map_settles {f : α → Visited α} {visit : β → Visited β} (whole : α → β) (settles : Settles f a)
    (parts : ∀ a, visit (whole a) = (f a).map whole) : Settles visit (whole a) := by
  constructor
  · rw [parts,map_value,parts,map_value,settles.value]
  · rw [parts,map_value,parts,map_fault,map_fault,settles.fault]

theorem idle_settles {visit : α → Visited α} (idle : (visit a).value = a) : Settles visit a := by
  constructor
  · rw [idle,idle]
  · rw [idle]

-- Nothing is left to do in what took the place of another value.
theorem replaced_settles {visit : α → Visited α} (replaced : (visit a).value = b) (value : (visit b).value = b)
    (fault : (visit b).fault = (visit a).fault) : Settles visit a := by
  constructor
  · rw [replaced,value]
  · rw [replaced,fault]

end Visited

open Visited (Settles)

-- The labels of the tables that a column merges, through columns that are merged themselves.
mutual
def Node.mergedLabels : Node → List String
  | .column _ source e =>
    match source with
    | .table label => [label]
    | .using => mergedByExpression e
  | _ => []
def mergedByExpression : Option Node → List String
  | some (.list sides) => mergedBySides sides
  | _ => []
def mergedBySides : List Node → List String
  | [] => []
  | n :: ns => n.mergedLabels ++ mergedBySides ns
end

namespace UsingColumn

-- A side gives its own label or what it merges.
theorem mem_mergedLabels (n : Node) : label ∈ n.mergedLabels ↔
    n.tableLabel? = some label ∨ ∃ c, ofNode? n = some c ∧ label ∈ mergedByExpression c.expression := by
  cases n with
  | column name source e => cases source <;> simp [Node.mergedLabels,Node.tableLabel?,ofNode?,eq_comm]
  | _ => simp [Node.mergedLabels,Node.tableLabel?,ofNode?]

theorem mem_mergedBySides (sides : List Node) : label ∈ mergedBySides sides ↔
    label ∈ sides.filterMap Node.tableLabel? ∨ ∃ c ∈ mergedSides sides, label ∈ mergedByExpression c.expression := by
  have each : label ∈ mergedBySides sides ↔ ∃ n ∈ sides, label ∈ n.mergedLabels := by
    induction sides with
    | nil => simp [mergedBySides]
    | cons n sides ih => simp [mergedBySides,ih]
  simp only [each,mem_mergedLabels,mergedSides,List.mem_filterMap]
  constructor
  · rintro ⟨n,side,own | ⟨c,merged,inside⟩⟩
    · exact .inl ⟨n,side,own⟩
    · exact .inr ⟨c,⟨n,side,merged⟩,inside⟩
  · rintro (⟨n,side,own⟩ | ⟨c,⟨n,side,merged⟩,inside⟩)
    · exact ⟨n,side,.inl own⟩
    · exact ⟨n,side,.inr ⟨c,merged,inside⟩⟩

-- The walk over a stack reaches what each of its columns merges, whatever way that is nested.
theorem mem_mergedTables (stack : List UsingColumn) :
    label ∈ mergedTables stack ↔ ∃ c ∈ stack, label ∈ mergedByExpression c.expression := by
  fun_induction mergedTables stack with
  | case1 => simp
  | case2 c stack sides known ih =>
    have own : label ∈ mergedByExpression c.expression ↔ label ∈ mergedBySides sides := by rw [known,mergedByExpression]
    simp only [List.mem_append,ih,List.mem_reverse,List.mem_cons,own,mem_mergedBySides,or_and_right,exists_or,exists_eq_left,or_assoc]
  | case3 c stack other ih =>
    have idle : mergedByExpression c.expression = [] := by
      unfold mergedByExpression
      split
      · rename_i sides known
        exact absurd known (other sides)
      · rfl
    simp [ih,idle]

end UsingColumn

namespace Scope

theorem single_ok : single identifier place ts = .ok t ↔ ts = [t] := by
  rcases ts with _ | ⟨t',_ | ⟨_,_⟩⟩ <;> simp [single]

-- A name means the column of the one table that has it, or a merged column that stands for all tables that have it.
theorem resolveName_ok (s : Scope) : s.resolveName place name = .ok n ↔
    (∃ t, s.usingColumns.find? (·.name = name) = none ∧ s.tables.filter (·.has name) = [t] ∧ t.column name = n) ∨
    (∃ c, s.usingColumns.find? (·.name = name) = some c ∧
      (∀ t ∈ s.tables, t.has name = true → t.label ∈ mergedByExpression c.expression) ∧ c.node = n) := by
  unfold resolveName
  cases merged : s.usingColumns.find? (·.name = name) with
  | none =>
    have bound : (do return (← single name place (s.tables.filter (·.has name))).column name : Except AnalysisError Node) = .ok n ↔
        ∃ t, s.tables.filter (·.has name) = [t] ∧ t.column name = n := by
      rw [bind_ok]
      simp only [single_ok,pure,Except.pure,Except.ok.injEq]
    simpa using bound
  | some c =>
    have none_left : (s.tables.filter fun t => t.has name && !(UsingColumn.mergedTables [c]).contains t.label).isEmpty = true ↔
        ∀ t ∈ s.tables, t.has name = true → t.label ∈ mergedByExpression c.expression := by
      simp [UsingColumn.mem_mergedTables]
    dsimp only
    split
    · have all := none_left.mp ‹_›
      simpa using fun _ => all
    · have left := mt none_left.mpr ‹_›
      simpa using fun all => absurd all left

-- A qualified name means the column of the one table that it names.
theorem resolve_compound (s : Scope) (compound : Identifier.isCompound parts = true) : s.resolve parts = .ok n ↔
    ∃ t, (s.tables.filter fun t => t.table.matchesQualifier (Identifier.qualifier parts) && t.has (Identifier.short parts)) = [t] ∧
      t.column (Identifier.short parts) = n := by
  rw [resolve,if_pos compound,bind_ok]
  simp only [single_ok,pure,Except.pure,Except.ok.injEq]

-- The one table that is meant is one of the scope.
theorem table_of_single {s : Scope} {p : ScopeTable → Bool} (only : s.tables.filter p = [t]) : t ∈ s.tables ∧ p t = true :=
  List.mem_filter.mp (only ▸ List.mem_singleton_self t)

theorem resolve_single (s : Scope) (single : Identifier.isCompound parts = false) :
    s.resolve parts = s.resolveName s.describe (Identifier.short parts) := by
  rw [resolve,if_neg (by simp [single])]

theorem resolveName_column (s : Scope) (found : s.resolveName place name = .ok n) : ∃ source e, n = .column name source e := by
  rcases s.resolveName_ok.mp found with ⟨t,_,_,rfl⟩ | ⟨c,known,_,rfl⟩
  · exact ⟨_,_,rfl⟩
  · have same : c.name = name := by simpa using List.find?_some known
    exact ⟨.using,c.expression,by rw [UsingColumn.node,same]⟩

-- An identifier means a column.
theorem resolve_column (s : Scope) (found : s.resolve parts = .ok n) : ∃ source e, n = .column (Identifier.short parts) source e := by
  cases compound : Identifier.isCompound parts with
  | true =>
    obtain ⟨t,_,rfl⟩ := (s.resolve_compound compound).mp found
    exact ⟨_,_,rfl⟩
  | false => exact s.resolveName_column (s.resolve_single compound ▸ found)

end Scope

namespace Node

mutual
theorem bindNames_settles (s : Scope) : (n : Node) → Settles (bindNames s) n
  | identifier parts => by
    cases found : s.resolve parts with
    | error e => exact Visited.idle_settles (by simp [bindNames,found])
    | ok c =>
      obtain ⟨source,e,column⟩ := s.resolve_column found
      have bound : bindNames s (identifier parts) = ⟨c,[.single parts c],none⟩ := by
        rw [bindNames,found]
      refine Visited.replaced_settles (congrArg (·.value) bound) ?_ ?_
      · rw [column]
        rfl
      · rw [bound,column]
        rfl
  | constant _ | column .. | table .. => Visited.idle_settles rfl
  | function name args => Visited.map_settles (function name) (bindNames_settles s args) fun _ => rfl
  | list nodes => Visited.map_settles list (bindAllNames_settles s nodes) fun _ => rfl
  | join spec l r e =>
    Visited.map_settles (fun ((e,r),l) => join spec l r e)
      (Visited.both_settles (Visited.both_settles (bindSlotNames_settles s e) (bindNames_settles s r)) (bindNames_settles s l))
      fun _ => rfl
  | runtimeFilter id c => Visited.map_settles (runtimeFilter id) (bindNames_settles s c) fun _ => rfl
theorem bindAllNames_settles (s : Scope) : (ns : List Node) → Settles (bindAllNames s) ns
  | [] => Visited.idle_settles rfl
  | n :: ns =>
    Visited.map_settles (fun (ns,n) => n :: ns) (Visited.both_settles (bindAllNames_settles s ns) (bindNames_settles s n))
      fun _ => rfl
theorem bindSlotNames_settles (s : Scope) : (e : Option Node) → Settles (bindSlotNames s) e
  | none => Visited.idle_settles rfl
  | some n => Visited.map_settles some (bindNames_settles s n) fun _ => rfl
end

section
variable {left right : Scope}

-- A name that both sides have stands for the columns that they mean.
theorem bindUsingEntry_name (single : Identifier.isCompound parts = false)
    (first : left.resolveName "left table expression" (Identifier.short parts) = .ok l)
    (second : right.resolveName "right table expression" (Identifier.short parts) = .ok r) :
    bindUsingEntry left right (identifier parts) =
      ⟨usingColumn (Identifier.short parts) l r,[.shared (Identifier.short parts)],none⟩ := by
  rw [bindUsingEntry,if_neg (by simp [single])]
  simp only [first,second]
  rfl

-- A name that both sides have.
def IsShared (left right : Scope) (n : Node) : Prop :=
  ∃ parts l r, n = identifier parts ∧ Identifier.isCompound parts = false ∧
    left.resolveName "left table expression" (Identifier.short parts) = .ok l ∧
    right.resolveName "right table expression" (Identifier.short parts) = .ok r

-- Any other entry is left as it is.
theorem bindUsingEntry_cases (left right : Scope) (n : Node) : (bindUsingEntry left right n).value = n ∧
      ((bindUsingEntry left right n).fault = none → ∃ name e, n = column name .using e) ∨ IsShared left right n := by
  cases n with
  | column name source e =>
    rcases source with label | _
    · exact .inl ⟨rfl,fun done => by cases done⟩
    · exact .inl ⟨rfl,fun _ => ⟨name,e,rfl⟩⟩
  | identifier parts =>
    cases compound : Identifier.isCompound parts with
    | true => exact .inl (by simp [bindUsingEntry,compound])
    | false =>
      cases first : left.resolveName "left table expression" (Identifier.short parts) with
      | error e =>
        refine .inl ?_
        rw [bindUsingEntry,if_neg (by simp [compound])]
        simp only [first]
        exact ⟨rfl,fun done => by cases done⟩
      | ok l =>
        cases second : right.resolveName "right table expression" (Identifier.short parts) with
        | error e =>
          refine .inl ?_
          rw [bindUsingEntry,if_neg (by simp [compound])]
          simp only [first,second]
          exact ⟨rfl,fun done => by cases done⟩
        | ok r => exact .inr ⟨parts,l,r,rfl,compound,first,second⟩
  | _ => exact .inl ⟨rfl,fun done => by cases done⟩

theorem bindUsingEntry_settles (left right : Scope) (n : Node) : Settles (bindUsingEntry left right) n := by
  rcases bindUsingEntry_cases left right n with ⟨idle,_⟩ | ⟨parts,l,r,rfl,single,first,second⟩
  · exact Visited.idle_settles idle
  · have bound := bindUsingEntry_name single first second
    exact Visited.replaced_settles (congrArg (·.value) bound) rfl (congrArg (·.fault) bound).symm

end

theorem bindUsing_settles (left right : Scope) (ns : List Node) : Settles (bindUsing left right) ns := by
  induction ns with
  | nil => exact Visited.idle_settles rfl
  | cons n ns ih =>
    have entries := Visited.both_settles (bindUsingEntry_settles left right n) ih
    have parts (p : Node × List Node) : bindUsing left right (p.1 :: p.2) =
        (Visited.both (bindUsingEntry left right) (bindUsing left right) p).map fun q => q.1 :: q.2 := rfl
    exact Visited.map_settles (fun q => q.1 :: q.2) entries parts

-- A name becomes a column or stays what it is.
theorem bound_identifier (s : Scope) (parts : List String) :
    (∃ name source e, (bindNames s (identifier parts)).value = .column name source e) ∨
      (bindNames s (identifier parts)).value = identifier parts := by
  rw [bindNames]
  split
  · rename_i c found
    obtain ⟨source,e,rfl⟩ := s.resolve_column found
    exact .inl ⟨_,source,e,rfl⟩
  · exact .inr rfl

-- What stands for a list is still a list, and what stands for another node is none.
theorem bindNames_list (s : Scope) (n : Node) (other : ∀ ns, n ≠ list ns) (ns : List Node) : (bindNames s n).value ≠ list ns := by
  cases n with
  | list ns => exact absurd rfl (other ns)
  | identifier parts =>
    rcases bound_identifier s parts with ⟨name,source,e,bound⟩ | bound
    · rw [bound]
      exact nofun
    · rw [bound]
      exact nofun
  | _ => exact nofun

end Node

theorem bindConstraint_names (left right : Scope) (e : Node) (other : ∀ ns, e ≠ .list ns) :
    bindConstraint left right (some e) = ((Node.bindNames (left.merge right) e).map some,left.merge right) := by
  cases e with
  | list ns => exact absurd rfl (other ns)
  | _ => rfl

-- The join expression that is left has the same scope.
theorem bindConstraint_settles (left right : Scope) (e : Option Node) :
    Settles (fun e => (bindConstraint left right e).1) e ∧
      (bindConstraint left right (bindConstraint left right e).1.value).2 = (bindConstraint left right e).2 := by
  cases e with
  | none => exact ⟨Visited.idle_settles rfl,rfl⟩
  | some e =>
    by_cases listed : ∃ ns, e = .list ns
    · obtain ⟨ns,rfl⟩ := listed
      have settles := Node.bindUsing_settles left right ns
      refine ⟨Visited.map_settles (fun ns => some (Node.list ns)) settles fun _ => rfl,?_⟩
      simp only [bindConstraint,Visited.map_value,settles.value]
    · have other : ∀ ns, e ≠ .list ns := fun ns same => listed ⟨ns,same⟩
      have settles := Node.bindNames_settles (left.merge right) e
      have first := bindConstraint_names left right e other
      have second := bindConstraint_names left right _ (Node.bindNames_list (left.merge right) e other)
      refine ⟨⟨?_,?_⟩,?_⟩
      · simp only [first,Visited.map_value,second,settles.value]
      · simp only [first,Visited.map_value,Visited.map_fault,second,settles.fault]
      · simp only [first,Visited.map_value,second]

namespace Resolution

-- A table is resolved with its columns.
theorem table_ok : ((Node.table name asName).resolve c).outcome = .ok s ↔
    ∃ columns, c.columns? name = some columns ∧ s = ⟨[⟨⟨name,asName⟩,columns⟩],[]⟩ := by
  simp only [Node.resolve,ofTable]
  cases c.columns? name with
  | none => simp
  | some columns => simp [eq_comm]

-- A join is resolved with both sides and its join expression.
theorem join_ok : ((Node.join spec l r e).resolve c).outcome = .ok scope ↔
    ∃ left right, (l.resolve c).outcome = .ok left ∧ (r.resolve c).outcome = .ok right ∧
      (bindConstraint left right e).1.fault = none ∧ (bindConstraint left right e).2 = scope := by
  cases first : (l.resolve c).outcome with
  | error fault => simp [Node.resolve,ofJoin,first]
  | ok left =>
    cases second : (r.resolve c).outcome with
    | error fault => simp [Node.resolve,ofJoin,first,second]
    | ok right =>
      simp only [Node.resolve,ofJoin,first,second,Except.ok.injEq,exists_and_left,exists_eq_left']
      cases (bindConstraint left right e).1.fault <;> simp

theorem join_tree (first : (l.resolve c).outcome = .ok left) (second : (r.resolve c).outcome = .ok right) :
    ((Node.join spec l r e).resolve c).tree = .join spec (l.resolve c).tree (r.resolve c).tree (bindConstraint left right e).1.value := by
  simp only [Node.resolve,ofJoin,first,second]

-- What holds of the scope of each table, and passes from the scopes of both sides of a join to its own scope.
theorem induct {P : Node → Scope → Prop}
    (table : ∀ name asName columns, c.columns? name = some columns → P (.table name asName) ⟨[⟨⟨name,asName⟩,columns⟩],[]⟩)
    (join : ∀ spec l r e left right, (l.resolve c).outcome = .ok left → (r.resolve c).outcome = .ok right →
      (bindConstraint left right e).1.fault = none → P l left → P r right → P (.join spec l r e) (bindConstraint left right e).2)
    (n : Node) (done : (n.resolve c).outcome = .ok s) : P n s := by
  match n with
  | .table name asName =>
    obtain ⟨columns,known,rfl⟩ := table_ok.mp done
    exact table name asName columns known
  | .join spec l r e =>
    obtain ⟨left,right,first,second,bound,rfl⟩ := join_ok.mp done
    exact join spec l r e left right first second bound (induct table join l first) (induct table join r second)
  | .identifier .. | .constant .. | .column .. | .function .. | .list .. | .runtimeFilter .. => cases done

end Resolution

-- A table of a table expression and its place, where 0 leads to the left side of a join and 1 to the right one.
structure Leaf where
  path : List Nat
  table : TableName
  deriving DecidableEq, Repr

namespace Leaf

def label (l : Leaf) : String := l.table.label
def under (side : Nat) (l : Leaf) : Leaf := ⟨side :: l.path,l.table⟩
def columns (c : Catalog) (l : Leaf) : List String := (c.columns? l.table.name).getD []
def has (c : Catalog) (column : String) (l : Leaf) : Bool := (l.columns c).contains column
def entry (c : Catalog) (l : Leaf) : ScopeTable := ⟨l.table,l.columns c⟩

end Leaf

-- The tables of a table expression from left to right.
def Node.leaves : Node → List Leaf
  | table name asName => [⟨[],⟨name,asName⟩⟩]
  | join _ l r _ => l.leaves.map (.under 0) ++ r.leaves.map (.under 1)
  | _ => []

-- What was gathered one element at a time, each in the place of others, was there before or is one of the elements.
theorem mem_gathered {f : σ → List α} {add : σ → α → σ} {kept : σ → α → α → Bool} {as : List α}
    (step : ∀ s a, f (add s a) = (f s).filter (kept s a) ++ [a]) (inside : x ∈ f (as.foldl add s)) : x ∈ f s ∨ x ∈ as := by
  induction as generalizing s with
  | nil => exact .inl inside
  | cons a as ih =>
    rcases ih inside with first | later
    · rw [step] at first
      rcases List.mem_append.mp first with kept | last
      · exact .inl (List.mem_filter.mp kept).1
      · exact .inr (List.mem_cons.mpr (.inl (List.mem_singleton.mp last)))
    · exact .inr (List.mem_cons_of_mem _ later)

-- Merged columns add no tables to a scope.

namespace Scope

theorem addAllUsing_tables (s : Scope) (cs : List UsingColumn) : (s.addAllUsing cs).tables = s.tables := by
  induction cs generalizing s with
  | nil => rfl
  | cons c cs ih => exact ih (s.addUsing c)

theorem merge_tables (left right : Scope) : (left.merge right).tables = left.tables ++ right.tables := addAllUsing_tables _ _

end Scope

theorem bindConstraint_tables (left right : Scope) (e : Option Node) :
    (bindConstraint left right e).2.tables = left.tables ++ right.tables := by
  unfold bindConstraint
  split
  · exact left.merge_tables right
  · rw [Scope.addAllUsing_tables,Scope.merge_tables]
  · exact left.merge_tables right

-- The tables of a scope are the leaves of its table expression.
theorem Resolution.tables_leaves (n : Node) (done : (n.resolve c).outcome = .ok s) : s.tables = n.leaves.map (Leaf.entry c) := by
  refine induct (P := fun n s => s.tables = n.leaves.map (Leaf.entry c)) ?table ?join n done
  case table =>
    intro name asName columns known
    simp [Node.leaves,Leaf.entry,Leaf.columns,known]
  case join =>
    intro spec l r e left right _ _ _ first second
    rw [bindConstraint_tables,first,second,Node.leaves,List.map_append,List.map_map,List.map_map]
    rfl

namespace Resolution

-- What is left of a join ends the same way if both sides do.
theorem ofJoin_again (spec : JoinSpec) (left : Node) (right : Node) (e : Option Node)
    (tree : ((left.resolve c).tree.resolve c).tree = (left.resolve c).tree)
    (outcome : ((left.resolve c).tree.resolve c).outcome = (left.resolve c).outcome)
    (tree' : ((right.resolve c).tree.resolve c).tree = (right.resolve c).tree)
    (outcome' : ((right.resolve c).tree.resolve c).outcome = (right.resolve c).outcome) :
    (((Node.join spec left right e).resolve c).tree.resolve c).tree = ((Node.join spec left right e).resolve c).tree ∧
      (((Node.join spec left right e).resolve c).tree.resolve c).outcome = ((Node.join spec left right e).resolve c).outcome := by
  cases first : (left.resolve c).outcome with
  | error fault =>
    have again := outcome.trans first
    simp only [Node.resolve,ofJoin,first,again,tree,and_self]
  | ok leftScope =>
    have again := outcome.trans first
    cases second : (right.resolve c).outcome with
    | error fault =>
      have again' := outcome'.trans second
      simp only [Node.resolve,ofJoin,first,again,second,again',tree,tree',and_self]
    | ok rightScope =>
      have again' := outcome'.trans second
      obtain ⟨⟨value,fault⟩,scope⟩ := bindConstraint_settles leftScope rightScope e
      simp only [Node.resolve,ofJoin,first,again,second,again',tree,tree',value,fault,scope,and_self]

end Resolution

-- Resolving what is left of a tree changes nothing and ends the same way, also at a fault.
theorem Node.resolve_resolve (c : Catalog) (n : Node) :
    ((n.resolve c).tree.resolve c).tree = (n.resolve c).tree ∧ ((n.resolve c).tree.resolve c).outcome = (n.resolve c).outcome := by
  match n with
  | .table .. => exact ⟨rfl,rfl⟩
  | .join spec l r e =>
    obtain ⟨tree,outcome⟩ := l.resolve_resolve c
    obtain ⟨tree',outcome'⟩ := r.resolve_resolve c
    exact Resolution.ofJoin_again spec l r e tree outcome tree' outcome'
  | .identifier .. | .constant .. | .column .. | .function .. | .list .. | .runtimeFilter .. => exact ⟨rfl,rfl⟩

end JoinTree
