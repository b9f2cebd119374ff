import JoinTree.Proofs.Ambiguity

/-!
What a scope says about its tree. Main statement: it has the tables of the tree with their columns and, under names that
differ, merged columns that USING joins of the tree made of a column of each side. A column in the resolved tree comes
from a table of the join that it belongs to.
-/

namespace JoinTree

namespace Node

-- A column of a name among some tables, or one that merges two such columns.
inductive Provided (ts : List ScopeTable) (name : String) : Node → Prop where
  | table : t ∈ ts → t.has name = true → Provided ts name (t.column name)
  | shared : Provided ts name a → Provided ts name b → Provided ts name (usingColumn name a b)

-- Each column of a table in a tree belongs to one of some tables.
def Drawn (ts : List ScopeTable) (n : Node) : Prop :=
  ∀ path name label e, n.at? path = some (column name (.table label) e) → ∃ t ∈ ts, t.label = label ∧ t.has name = true

-- Two columns are merged under a name by a USING join of the tree. The first one is what the name means on the left
-- side of that join, the second one what it means on the right side.
inductive Makes (c : Catalog) : Node → String → Node → Node → Prop where
  | here : (l.resolve c).outcome = .ok left → (r.resolve c).outcome = .ok right → identifier parts ∈ ns →
      Identifier.isCompound parts = false → left.resolveName "left table expression" (Identifier.short parts) = .ok a →
      right.resolveName "right table expression" (Identifier.short parts) = .ok b →
      Makes c (join spec l r (some (list ns))) (Identifier.short parts) a b
  | left : Makes c l name a b → Makes c (join spec l r e) name a b
  | right : Makes c r name a b → Makes c (join spec l r e) name a b

-- A path leads through sides of joins to a join, and then into its join expression. The join has a table with a label
-- and a column.
def SourcedAt (c : Catalog) (n : Node) (path : List Nat) (name label : String) : Prop :=
  ∃ above below spec l r e, path = above ++ 2 :: below ∧ (∀ i ∈ above, i < 2) ∧ n.at? above = some (join spec l r e) ∧
    ∃ leaf ∈ (join spec l r e).leaves, leaf.label = label ∧ leaf.has c name = true

-- Each column of a table belongs to a join that has the table.
def IsSourced (c : Catalog) (n : Node) : Prop :=
  ∀ path name label e, n.at? path = some (column name (.table label) e) → n.SourcedAt c path name label

end Node

structure Scope.IsSound (c : Catalog) (n : Node) (s : Scope) : Prop where
  tables : s.tables.map (·.table) = n.leaves.map (·.table)
  columns : ∀ t ∈ s.tables, (c.lookup t.table.name).or (c.lookup (lastPart t.table.name)) = some t.columns
  distinct : (s.usingColumns.map (·.name)).Nodup
  merged : ∀ u ∈ s.usingColumns, ∃ a b, u.expression = some (.list [a,b]) ∧ (∃ source e, a = .column u.name source e) ∧
    (∃ source e, b = .column u.name source e) ∧ n.Makes c u.name a b
  labels : ∀ u ∈ s.usingColumns, ∀ label ∈ UsingColumn.mergedTables [u], ∃ t ∈ s.tables, t.label = label ∧ t.has u.name = true

namespace Node

-- What stands for a name.

theorem Provided.mono (provided : Provided ts name n) (more : ∀ t ∈ ts, t ∈ ts') : Provided ts' name n := by
  induction provided with
  | table inside has => exact .table (more _ inside) has
  | shared _ _ first second => exact .shared first second

theorem Provided.shape (provided : Provided ts name n) : ∃ source e, n = column name source e := by
  cases provided with
  | table => exact ⟨_,_,rfl⟩
  | shared => exact ⟨_,_,rfl⟩

theorem Provided.sides (provided : (usingColumn name a b).Provided ts name) : a.Provided ts name ∧ b.Provided ts name := by
  cases provided with
  | shared first second => exact ⟨first,second⟩

theorem Provided.labels (provided : Provided ts name n) :
    ∀ label ∈ n.mergedLabels, ∃ t ∈ ts, t.label = label ∧ t.has name = true := by
  induction provided with
  | @table t inside has =>
    intro label member
    have same : label = t.label := List.mem_singleton.mp member
    exact ⟨t,inside,same.symm,has⟩
  | shared _ _ first second =>
    intro label member
    simp only [usingColumn,mergedLabels,mergedByExpression,mergedBySides,List.append_nil,List.mem_append] at member
    exact member.elim (first label) (second label)

theorem drawn_children (other : ∀ name label e, n ≠ column name (.table label) e) (children : ∀ m ∈ n.children, m.Drawn ts) :
    n.Drawn ts := by
  intro path name label e here
  cases path with
  | nil => exact absurd (Option.some.inj here) (other name label e)
  | cons i path =>
    obtain ⟨m,child,below⟩ := Option.bind_eq_some_iff.mp here
    exact children m (List.mem_of_getElem? child) path name label e below

theorem drawn_list (each : ∀ n ∈ ns, n.Drawn ts) : (list ns).Drawn ts := by
  refine drawn_children nofun fun m child => each m ?_
  simpa [children,slots,List.filterMap_map,Function.comp_def] using child

theorem Provided.drawn (provided : Provided ts name n) : n.Drawn ts := by
  induction provided with
  | @table t inside has =>
    intro path name' label e here
    cases path with
    | nil =>
      cases here
      exact ⟨t,inside,rfl,has⟩
    | cons => cases here
  | @shared a b _ _ first second =>
    have sides : (list [a,b]).Drawn ts := drawn_list (by simpa using ⟨first,second⟩)
    exact drawn_children nofun (by simpa [usingColumn,children,slots] using sides)

end Node

-- The merged columns of a scope stand for columns of its tables.
def Scope.Provided (s : Scope) : Prop := ∀ u ∈ s.usingColumns, u.node.Provided s.tables u.name

namespace Scope

theorem resolveName_provided {s : Scope} (known : s.Provided) (found : s.resolveName place name = .ok a) :
    a.Provided s.tables name := by
  rcases s.resolveName_ok.mp found with ⟨t,_,only,rfl⟩ | ⟨u,visible,_,rfl⟩
  · have member := table_of_single only
    exact .table member.1 member.2
  · have same : u.name = name := by simpa using List.find?_some visible
    exact same ▸ known u (List.mem_of_find?_eq_some visible)

theorem resolve_provided {s : Scope} (known : s.Provided) (found : s.resolve parts = .ok a) :
    a.Provided s.tables (Identifier.short parts) := by
  cases compound : Identifier.isCompound parts with
  | true =>
    obtain ⟨t,only,rfl⟩ := (s.resolve_compound compound).mp found
    have member := table_of_single only
    simp only [Bool.and_eq_true] at member
    exact .table member.1 member.2.2
  | false => exact resolveName_provided known (s.resolve_single compound ▸ found)

-- A scope gets merged columns one by one.

theorem addUsing_distinct {s : Scope} (u : UsingColumn) (distinct : (s.usingColumns.map (·.name)).Nodup) :
    ((s.addUsing u).usingColumns.map (·.name)).Nodup := by
  have kept : ((s.usingColumns.filter (·.name ≠ u.name)).map (·.name)).Nodup := distinct.sublist (List.filter_sublist.map _)
  have fresh : ∀ name ∈ (s.usingColumns.filter (·.name ≠ u.name)).map (·.name), name ≠ u.name := by
    intro name member
    obtain ⟨v,inside,rfl⟩ := List.mem_map.mp member
    simpa using (List.mem_filter.mp inside).2
  simp only [addUsing,List.map_append,List.map_cons,List.map_nil]
  exact List.nodup_append.mpr ⟨kept,by simp,by simpa using fresh⟩

theorem addAllUsing_distinct {s : Scope} (us : List UsingColumn) (distinct : (s.usingColumns.map (·.name)).Nodup) :
    ((s.addAllUsing us).usingColumns.map (·.name)).Nodup := by
  induction us generalizing s with
  | nil => exact distinct
  | cons u us ih => exact ih (addUsing_distinct u distinct)

theorem mem_addAllUsing {s : Scope} {us : List UsingColumn} (inside : u ∈ (s.addAllUsing us).usingColumns) :
    u ∈ s.usingColumns ∨ u ∈ us :=
  mem_gathered (f := usingColumns) (fun _ _ => rfl) inside

theorem mem_merge {left right : Scope} (inside : u ∈ (left.merge right).usingColumns) :
    u ∈ left.usingColumns ∨ u ∈ right.usingColumns :=
  mem_addAllUsing (s := ⟨left.tables ++ right.tables,left.usingColumns⟩) inside

end Scope

-- The scope of a join, from the scopes of its sides.

section
variable {left right : Scope} {e : Option Node}

theorem bindConstraint_distinct (distinct : (left.usingColumns.map (·.name)).Nodup) :
    ((bindConstraint left right e).2.usingColumns.map (·.name)).Nodup := by
  have merged : ((left.merge right).usingColumns.map (·.name)).Nodup := Scope.addAllUsing_distinct _ distinct
  unfold bindConstraint
  split
  · exact merged
  · exact Scope.addAllUsing_distinct _ merged
  · exact merged

-- A merged column comes from one of the sides, or the join makes it.
theorem bindConstraint_using (unbound : ∀ m ∈ Node.nodesOption e, m.type ≠ .column)
    (done : (bindConstraint left right e).1.fault = none) (inside : u ∈ (bindConstraint left right e).2.usingColumns) :
    u ∈ left.usingColumns ∨ u ∈ right.usingColumns ∨ ∃ ns parts a b, e = some (.list ns) ∧ .identifier parts ∈ ns ∧
      Identifier.isCompound parts = false ∧ left.resolveName "left table expression" (Identifier.short parts) = .ok a ∧
      right.resolveName "right table expression" (Identifier.short parts) = .ok b ∧ u = ⟨Identifier.short parts,some (.list [a,b])⟩ := by
  by_cases listed : ∃ ns, e = some (.list ns)
  · obtain ⟨ns,rfl⟩ := listed
    obtain ⟨value,names⟩ := Node.bindUsing_done (fun m member => unbound m (List.mem_cons_of_mem _ member)) done
    rcases Scope.mem_addAllUsing inside with old | fresh
    · exact (Scope.mem_merge old).imp_right .inl
    · obtain ⟨entry,member,column⟩ := List.mem_filterMap.mp fresh
      rw [value] at member
      obtain ⟨n,listed,rfl⟩ := List.mem_map.mp member
      obtain ⟨parts,a,b,rfl,single,known,known'⟩ := names n listed
      rw [Node.bindUsingEntry_name single known known'] at column
      cases column
      exact .inr (.inr ⟨ns,parts,a,b,rfl,listed,single,known,known',rfl⟩)
  · have scope : (bindConstraint left right e).2 = left.merge right := by
      cases e with
      | none => rfl
      | some e => rw [bindConstraint_names left right e fun ns same => listed ⟨ns,congrArg some same⟩]
    exact (Scope.mem_merge (scope ▸ inside)).imp_right .inl

variable (first : left.Provided) (second : right.Provided)
include first second

theorem merge_provided : (left.merge right).Provided := by
  intro u inside
  rw [Scope.merge_tables]
  rcases Scope.mem_merge inside with old | old
  · exact (first u old).mono fun _ => List.mem_append_left _
  · exact (second u old).mono fun _ => List.mem_append_right _

-- Two columns of one name, one from each side.
theorem shared_provided (known : left.resolveName place name = .ok a) (known' : right.resolveName place' name = .ok b) :
    (Node.usingColumn name a b).Provided (left.tables ++ right.tables) name :=
  .shared ((Scope.resolveName_provided first known).mono fun _ => List.mem_append_left _)
    ((Scope.resolveName_provided second known').mono fun _ => List.mem_append_right _)

theorem bindConstraint_provided (unbound : ∀ m ∈ Node.nodesOption e, m.type ≠ .column)
    (done : (bindConstraint left right e).1.fault = none) : (bindConstraint left right e).2.Provided := by
  intro u inside
  rw [bindConstraint_tables]
  rcases bindConstraint_using unbound done inside with old | old | ⟨ns,parts,a,b,_,_,_,known,known',rfl⟩
  · exact (first u old).mono fun _ => List.mem_append_left _
  · exact (second u old).mono fun _ => List.mem_append_right _
  · exact shared_provided first second known known'

end

-- The names of a join expression.

namespace Node

-- A column takes the place of an identifier. Any other node stays what it is, with its children visited one by one.
theorem bindNames_cases (s : Scope) (n : Node) (unbound : n.Unbound) (done : (bindNames s n).fault = none) :
    (∃ parts, n = identifier parts ∧ s.resolve parts = .ok (bindNames s n).value) ∨
      (bindNames s n).value.type ≠ .column ∧ (bindNames s n).value.children = n.children.map (fun m => (bindNames s m).value) ∧
        ∀ m ∈ n.children, (bindNames s m).fault = none := by
  by_cases inner : ∃ parts, n = identifier parts
  · obtain ⟨parts,rfl⟩ := inner
    cases found : s.resolve parts with
    | ok a => exact .inl ⟨parts,rfl,by simp [bindNames,found]⟩
    | error e => simp [bindNames,found] at done
  · have other : n.type ≠ .column := unbound n (by cases n <;> simp [nodes])
    have same : (bindNames s n).value.type = n.type := by
      cases n with
      | identifier parts => exact absurd ⟨parts,rfl⟩ inner
      | _ => rfl
    exact .inr ⟨same ▸ other,bindNames_children s n (fun parts same => inner ⟨parts,same⟩) other done⟩

theorem bindNames_drawn {s : Scope} (known : s.Provided) (n : Node) (unbound : n.Unbound) (done : (bindNames s n).fault = none) :
    (bindNames s n).value.Drawn s.tables := by
  intro path name label e here
  -- Along the path, up to the first identifier and then into the column that took its place.
  induction path generalizing n with
  | nil =>
    rcases bindNames_cases s n unbound done with ⟨parts,_,found⟩ | ⟨other,_⟩
    · exact (Scope.resolve_provided known found).drawn [] name label e here
    · exact absurd (congrArg type (Option.some.inj here)) other
  | cons i path ih =>
    rcases bindNames_cases s n unbound done with ⟨parts,_,found⟩ | ⟨_,children,faults⟩
    · exact (Scope.resolve_provided known found).drawn (i :: path) name label e here
    · obtain ⟨m,child,below⟩ := Option.bind_eq_some_iff.mp here
      rw [children,List.getElem?_map,Option.map_eq_some_iff] at child
      obtain ⟨m,child,rfl⟩ := child
      have member := List.mem_of_getElem? child
      exact ih m (unbound_child unbound member) (faults m member) below

end Node

theorem bindConstraint_drawn {left right : Scope} (first : left.Provided) (second : right.Provided)
    (unbound : ∀ m ∈ Node.nodesOption e, m.type ≠ .column) (done : (bindConstraint left right e).1.fault = none)
    (bound : (bindConstraint left right e).1.value = some e') : e'.Drawn (left.tables ++ right.tables) := by
  by_cases listed : ∃ ns, e = some (.list ns)
  · obtain ⟨ns,rfl⟩ := listed
    obtain ⟨value,names⟩ := Node.bindUsing_done (fun m member => unbound m (List.mem_cons_of_mem _ member)) done
    have entries : e' = .list (ns.map fun n => (Node.bindUsingEntry left right n).value) := by
      rw [← value]
      exact (Option.some.inj bound).symm
    subst entries
    refine Node.drawn_list fun entry member => ?_
    obtain ⟨n,listed,rfl⟩ := List.mem_map.mp member
    obtain ⟨parts,a,b,rfl,single,known,known'⟩ := names n listed
    rw [Node.bindUsingEntry_name single known known']
    exact (shared_provided first second known known').drawn
  · cases e with
    | none => cases bound
    | some e =>
      rw [bindConstraint_names left right e fun ns same => listed ⟨ns,congrArg some same⟩] at done bound
      cases bound
      rw [← Scope.merge_tables]
      exact Node.bindNames_drawn (merge_provided first second) e unbound done

namespace Resolution

-- A resolution keeps the tables where they are, also at a fault.
theorem tree_leaves (c : Catalog) (n : Node) : (n.resolve c).tree.leaves = n.leaves := by
  match n with
  | .join spec l r e =>
    have left := tree_leaves c l
    have right := tree_leaves c r
    simp only [Node.resolve,ofJoin]
    split
    · simp only [Node.leaves,left]
    · split <;> simp only [Node.leaves,left,right]
  | .table .. | .identifier .. | .constant .. | .column .. | .function .. | .list .. | .runtimeFilter .. => rfl

-- Along the joins of a tree that could be resolved.

variable {n : Node} (unbound : n.Unbound) (done : (n.resolve c).outcome = .ok s)
include unbound done

theorem provided : s.Provided := by
  refine induct_unbound (P := fun _ s => s.Provided) ?table ?join n unbound done
  case table => exact nofun
  case join => exact fun _ _ _ _ _ _ _ _ unbound _ _ bound first second => bindConstraint_provided first second unbound bound

theorem distinct : (s.usingColumns.map (·.name)).Nodup := by
  refine induct_unbound (P := fun _ s => (s.usingColumns.map (·.name)).Nodup) ?table ?join n unbound done
  case table => exact fun _ _ _ _ => List.nodup_nil
  case join => exact fun _ _ _ _ _ _ _ _ _ _ _ _ first _ => bindConstraint_distinct first

theorem columns : ∀ t ∈ s.tables, c.columns? t.table.name = some t.columns := by
  refine induct_unbound (P := fun _ s => ∀ t ∈ s.tables, c.columns? t.table.name = some t.columns) ?table ?join n unbound done
  case table =>
    intro name asName columns known t member
    cases List.mem_singleton.mp member
    exact known
  case join =>
    intro _ _ _ e left right _ _ _ _ _ _ first second t member
    rw [bindConstraint_tables] at member
    exact (List.mem_append.mp member).elim (first t) (second t)

theorem made : ∀ u ∈ s.usingColumns, ∃ a b, u.expression = some (.list [a,b]) ∧ n.Makes c u.name a b := by
  refine induct_unbound (P := fun n s => ∀ u ∈ s.usingColumns, ∃ a b, u.expression = some (.list [a,b]) ∧ n.Makes c u.name a b)
    ?table ?join n unbound done
  case table => exact nofun
  case join =>
    intro spec l r e left right _ _ unbound first second bound madeLeft madeRight u inside
    rcases bindConstraint_using unbound bound inside with old | old | ⟨ns,parts,a,b,rfl,listed,single,known,known',rfl⟩
    · obtain ⟨a,b,same,makes⟩ := madeLeft u old
      exact ⟨a,b,same,.left makes⟩
    · obtain ⟨a,b,same,makes⟩ := madeRight u old
      exact ⟨a,b,same,.right makes⟩
    · exact ⟨a,b,rfl,.here first second listed single known known'⟩

end Resolution

namespace Node

theorem SourcedAt.under {n m : Node} (child : n.children[i]? = some m) (side : i < 2) (sourced : m.SourcedAt c path name label) :
    n.SourcedAt c (i :: path) name label := by
  obtain ⟨above,below,spec,l,r,e,rfl,sides,here,leaf⟩ := sourced
  refine ⟨i :: above,below,spec,l,r,e,rfl,?_,?_,leaf⟩
  · exact List.forall_mem_cons.mpr ⟨side,sides⟩
  · rw [at?,child]
    exact here

-- A join belongs to its own join expression.
theorem join_sourced {e : Option Node} (left : l.IsSourced c) (right : r.IsSourced c)
    (own : ∀ e', e = some e' → e'.Drawn ((join spec l r e).leaves.map (Leaf.entry c))) : (join spec l r e).IsSourced c := by
  intro path name label source here
  cases path with
  | nil => cases here
  | cons i path =>
    obtain ⟨m,child,below⟩ := Option.bind_eq_some_iff.mp here
    match i with
    | 0 =>
      cases child
      exact (left path name label source below).under rfl (by decide)
    | 1 =>
      cases child
      exact (right path name label source below).under rfl (by decide)
    | 2 =>
      cases e with
      | none => cases child
      | some e =>
        cases child
        obtain ⟨t,member,same,has⟩ := own m rfl path name label source below
        obtain ⟨leaf,inside,rfl⟩ := List.mem_map.mp member
        exact ⟨[],path,spec,l,r,some m,rfl,nofun,rfl,leaf,inside,same,has⟩
    | i + 3 => rcases e with _ | _ <;> cases child

end Node

theorem Resolution.sourced {n : Node} (unbound : n.Unbound) (done : (n.resolve c).outcome = .ok s) :
    (n.resolve c).tree.IsSourced c := by
  refine induct_unbound (P := fun n _ => (n.resolve c).tree.IsSourced c) ?table ?join n unbound done
  case table =>
    intro name asName columns _ path name' label e here
    cases path <;> cases here
  case join =>
    intro spec l r e left right unboundLeft unboundRight unbound first second bound sourcedLeft sourcedRight
    rw [join_tree first second]
    refine Node.join_sourced sourcedLeft sourcedRight fun e' present => ?_
    have tables : left.tables ++ right.tables =
        (Node.join spec (l.resolve c).tree (r.resolve c).tree (bindConstraint left right e).1.value).leaves.map (Leaf.entry c) := by
      rw [tables_leaves l first,tables_leaves r second,Node.leaves,tree_leaves,tree_leaves,List.map_append,List.map_map,List.map_map]
      rfl
    rw [← tables]
    exact bindConstraint_drawn (provided unboundLeft first) (provided unboundRight second) unbound bound present

-- A tree without columns that resolves gives a sound scope, and its columns come from the tables around them.
theorem Node.resolve_sound (c : Catalog) (n : Node) (s : Scope) (unbound : n.Unbound) (done : (n.resolve c).outcome = .ok s) :
    s.IsSound c n ∧ (n.resolve c).tree.IsSourced c := by
  have provided := Resolution.provided unbound done
  refine ⟨⟨?tables,Resolution.columns unbound done,Resolution.distinct unbound done,?merged,?labels⟩,Resolution.sourced unbound done⟩
  case tables =>
    rw [Resolution.tables_leaves n done,List.map_map]
    rfl
  case merged =>
    intro u inside
    obtain ⟨a,b,same,makes⟩ := Resolution.made unbound done u inside
    have pair : (Node.usingColumn u.name a b).Provided s.tables u.name := by
      rw [Node.usingColumn,← same]
      exact provided u inside
    obtain ⟨first,second⟩ := pair.sides
    exact ⟨a,b,same,first.shape,second.shape,makes⟩
  case labels =>
    intro u inside label member
    obtain ⟨v,only,merges⟩ := (UsingColumn.mem_mergedTables [u]).mp member
    cases List.mem_singleton.mp only
    exact (provided u inside).labels label merges

-- A merged column inside of another one, a table that the catalog knows by the last part of its name, and a condition.
theorem Node.resolve_sound_nested :
    let c : Catalog := [("orders",["id","total"]),("users",["id","name"]),("items",["id","price"]),("prices",["price"])]
    let n : Node := .join {}
      (.join {} (.join {} (.table "shop.orders" none) (.table "users" (some "u")) (some (.list [ident "id"]))) (.table "items" none)
        (some (.list [ident "id"])))
      (.table "prices" (some "p"))
      (some (call "and" [call "equals" [.identifier ["items","price"],.identifier ["p","price"]],call "less" [ident "total",ident "id"]]))
    let id : Node := usingColumn "id" (.column "id" (.table "shop.orders") none) (.column "id" (.table "u") none)
    let s : Scope := ⟨[⟨⟨"shop.orders",none⟩,["id","total"]⟩,⟨⟨"users",some "u"⟩,["id","name"]⟩,⟨⟨"items",none⟩,["id","price"]⟩,
        ⟨⟨"prices",some "p"⟩,["price"]⟩],
      [⟨"id",some (.list [id,.column "id" (.table "items") none])⟩]⟩
    n.Unbound ∧ (n.resolve c).outcome = .ok s ∧ s.IsSound c n ∧ (n.resolve c).tree.IsSourced c ∧
      (n.resolve c).tree.at? [2,0,1,0,0] = some (.column "total" (.table "shop.orders") none) := by
  intro c n id s
  have unbound : n.Unbound := by
    have all : ∀ m ∈ n.nodes, m.type ≠ .column := by decide +kernel
    exact all
  have done : (n.resolve c).outcome = .ok s := rfl
  obtain ⟨sound,sourced⟩ := resolve_sound c n s unbound done
  exact ⟨unbound,done,sound,sourced,rfl⟩

end JoinTree
