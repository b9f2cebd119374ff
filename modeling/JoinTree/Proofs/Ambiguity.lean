import JoinTree.Proofs.Naming
import JoinTree.Tree.Edit

/-!
What unqualified names mean among the tables of a join tree, each counted where it stands. Main statement: a name that
was bound means the one table that has it, or a merged column that stands for all tables that have it, as long as
those tables carry different labels.
-/

namespace JoinTree

-- A merged column by its name, with the tables that it stands for.
structure Merge where
  name : String
  leaves : List Leaf
  deriving DecidableEq, Repr

namespace Merge

def under (side : Nat) (m : Merge) : Merge := ⟨m.name,m.leaves.map (.under side)⟩

-- A later merge hides an earlier one of its name.
def add (ms : List Merge) (m : Merge) : List Merge := ms.filter (·.name ≠ m.name) ++ [m]

-- The merges of two table expressions side by side.
def both (left right : List Merge) : List Merge := (right.map (Merge.under 1)).foldl add (left.map (Merge.under 0))

end Merge

namespace Node

-- The tables that have a column.
def providers (c : Catalog) (n : Node) (name : String) : List Leaf := n.leaves.filter (Leaf.has c name)

-- The name that an entry of a USING list merges.
def usingName? : Node → Option String
  | identifier parts => if Identifier.isCompound parts then none else some (Identifier.short parts)
  | _ => none

end Node

namespace Merge

-- The tables that a name stands for in a table expression with the given merges.
def covered (c : Catalog) (n : Node) (ms : List Merge) (name : String) : List Leaf :=
  match ms.find? (·.name = name) with
  | some m => m.leaves
  | none => n.providers c name

-- What a USING join merges under a name.
def shared (c : Catalog) (l r : Node) (left right : List Merge) (name : String) : Merge :=
  ⟨name,(covered c l left name).map (.under 0) ++ (covered c r right name).map (.under 1)⟩

end Merge

namespace Node

-- The merged columns that are visible from a table expression.
def merges (c : Catalog) : Node → List Merge
  | join _ l r (some (list ns)) =>
    ((ns.filterMap usingName?).map (Merge.shared c l r (l.merges c) (r.merges c))).foldl Merge.add
      (Merge.both (l.merges c) (r.merges c))
  | join _ l r _ => Merge.both (l.merges c) (r.merges c)
  | _ => []

theorem merges_visible (c : Catalog) (spec : JoinSpec) (l r : Node) (e : Option Node) (other : ∀ ns, e ≠ some (list ns)) :
    (join spec l r e).merges c = Merge.both (l.merges c) (r.merges c) := by
  cases e with
  | none => rfl
  | some e =>
    cases e with
    | list ns => exact absurd rfl (other ns)
    | _ => rfl

-- What an unqualified name means in a table expression: the column of the one table that has it, or a merged column
-- that stands for every table that has it.
inductive Means (c : Catalog) (n : Node) (name : String) : Node → Prop where
  | single : n.providers c name = [leaf] → Means c n name (.column name (.table leaf.label) none)
  | merged : (n.merges c).find? (·.name = name) = some m → (∀ leaf ∈ n.providers c name, leaf ∈ m.leaves) →
      mergedByExpression e = m.leaves.map Leaf.label → Means c n name (.column name .using e)

-- The tables that have a column carry different labels.
def Labelled (c : Catalog) (n : Node) (name : String) : Prop :=
  ∀ a ∈ n.providers c name, ∀ b ∈ n.providers c name, a.label = b.label → a = b

-- What stands for the unqualified names of a join expression.
def ExpressionMeans (c : Catalog) (n l r : Node) (e e' : Option Node) : Prop :=
  match e with
  | some (list ns) => ∀ (i : Nat) name, ns[i]? = some (identifier [name]) →
      ∃ ns' a b, e' = some (list ns') ∧ ns'[i]? = some (usingColumn name a b) ∧
        (l.Labelled c name → l.Means c name a) ∧ (r.Labelled c name → r.Means c name b)
  | some e => ∀ path name, e.at? path = some (identifier [name]) →
      ∃ bound a, e' = some bound ∧ bound.at? path = some a ∧ (n.Labelled c name → n.Means c name a)
  | none => e' = none

end Node

-- Merged columns by their labels.

abbrev Trace := String × List String

def UsingColumn.trace (u : UsingColumn) : Trace := (u.name,mergedByExpression u.expression)
def Merge.trace (m : Merge) : Trace := (m.name,m.leaves.map Leaf.label)

namespace Trace

def add (ts : List Trace) (t : Trace) : List Trace := ts.filter (·.1 ≠ t.1) ++ [t]

theorem add_using (us : List UsingColumn) (cs : List UsingColumn) :
    ((Scope.addAllUsing ⟨ts,us⟩ cs).usingColumns).map UsingColumn.trace =
      (cs.map UsingColumn.trace).foldl add (us.map UsingColumn.trace) := by
  induction cs generalizing us with
  | nil => rfl
  | cons c cs ih =>
    have step : (us.filter (·.name ≠ c.name) ++ [c]).map UsingColumn.trace = add (us.map UsingColumn.trace) c.trace := by
      rw [add,List.map_append,List.filter_map]
      rfl
    rw [List.map_cons,List.foldl_cons,← step]
    exact ih _

theorem add_merges (ms ns : List Merge) :
    (ns.foldl Merge.add ms).map Merge.trace = (ns.map Merge.trace).foldl add (ms.map Merge.trace) := by
  induction ns generalizing ms with
  | nil => rfl
  | cons n ns ih =>
    have step : (Merge.add ms n).map Merge.trace = add (ms.map Merge.trace) n.trace := by
      rw [add,Merge.add,List.map_append,List.filter_map]
      rfl
    rw [List.map_cons,List.foldl_cons,List.foldl_cons,← step]
    exact ih _

theorem trace_under (side : Nat) (m : Merge) : (m.under side).trace = m.trace := by
  simp [Merge.under,Merge.trace,Function.comp_def,Leaf.label,Leaf.under]

theorem traces_under (side : Nat) (ms : List Merge) : (ms.map (Merge.under side)).map Merge.trace = ms.map Merge.trace := by
  simp [Function.comp_def,trace_under]

end Trace

-- A scope has the tables and the merged columns of a table expression.
structure Scope.Sees (c : Catalog) (n : Node) (s : Scope) : Prop where
  tables : s.tables = n.leaves.map (Leaf.entry c)
  traces : s.usingColumns.map UsingColumn.trace = (n.merges c).map Merge.trace

namespace Scope

section
variable {s : Scope} {n : Node} (sees : s.Sees c n)
include sees

theorem sees_providers (name : String) : s.tables.filter (·.has name) = (n.providers c name).map (Leaf.entry c) := by
  rw [sees.tables,List.filter_map]
  rfl

theorem sees_find (name : String) : (s.usingColumns.find? (·.name = name)).map UsingColumn.trace =
    ((n.merges c).find? (·.name = name)).map Merge.trace := by
  have same := congrArg (List.find? fun t : Trace => t.1 = name) sees.traces
  rw [List.find?_map,List.find?_map] at same
  exact same

-- What a name means is labelled as the tables that it stands for.
theorem mergedLabels_covered (found : s.resolveName place name = .ok a) :
    a.mergedLabels = (Merge.covered c n (n.merges c) name).map Leaf.label := by
  have same := sees_find sees name
  rcases s.resolveName_ok.mp found with ⟨t,absent,only,rfl⟩ | ⟨u,known,_,rfl⟩
  · rw [absent,Option.map_none,eq_comm,Option.map_eq_none_iff] at same
    rw [sees_providers sees,List.map_eq_singleton_iff] at only
    obtain ⟨leaf,only,rfl⟩ := only
    simp [Merge.covered,same,only,ScopeTable.column,Node.mergedLabels,ScopeTable.label,Leaf.entry,Leaf.label]
  · rw [known,Option.map_some,eq_comm,Option.map_eq_some_iff] at same
    obtain ⟨m,found,same⟩ := same
    simp only [Merge.trace,UsingColumn.trace,Prod.mk.injEq] at same
    simp only [Merge.covered,found,UsingColumn.node,Node.mergedLabels,same.2]

end

end Scope

-- A merge stands for tables that have its name.

namespace Merge

theorem mem_add {ms ns : List Merge} (inside : m ∈ ns.foldl add ms) : m ∈ ms ∨ m ∈ ns :=
  mem_gathered (f := id) (fun _ _ => rfl) inside

-- The tables that have a column, on either side of a join.
theorem mem_providers {c : Catalog} {l r : Node} {name : String}
    (inside : leaf ∈ (l.providers c name).map (Leaf.under 0) ++ (r.providers c name).map (Leaf.under 1)) :
    leaf ∈ (Node.join spec l r e).providers c name := by
  simp only [Node.providers,Node.leaves,List.filter_append,List.filter_map,List.mem_append] at inside ⊢
  exact inside

theorem under_providers {ms ms' : List Merge} (left : ∀ m ∈ ms, ∀ leaf ∈ m.leaves, leaf ∈ l.providers c m.name)
    (right : ∀ m ∈ ms', ∀ leaf ∈ m.leaves, leaf ∈ r.providers c m.name) (inside : m ∈ both ms ms') (leaf : Leaf)
    (here : leaf ∈ m.leaves) : leaf ∈ (Node.join spec l r e).providers c m.name := by
  refine mem_providers (List.mem_append.mpr ?_)
  rcases mem_add inside with first | second
  · obtain ⟨m,known,rfl⟩ := List.mem_map.mp first
    obtain ⟨leaf,member,rfl⟩ := List.mem_map.mp here
    exact .inl (List.mem_map_of_mem (left m known leaf member))
  · obtain ⟨m,known,rfl⟩ := List.mem_map.mp second
    obtain ⟨leaf,member,rfl⟩ := List.mem_map.mp here
    exact .inr (List.mem_map_of_mem (right m known leaf member))

theorem covered_providers {n : Node} {ms : List Merge} {name : String}
    (known : ∀ m ∈ ms, ∀ leaf ∈ m.leaves, leaf ∈ n.providers c m.name) (inside : leaf ∈ covered c n ms name) :
    leaf ∈ n.providers c name := by
  unfold covered at inside
  split at inside
  · rename_i m found
    have same : m.name = name := by simpa using List.find?_some found
    exact same ▸ known m (List.mem_of_find?_eq_some found) leaf inside
  · exact inside

end Merge

theorem Node.merges_providers (c : Catalog) (n : Node) : ∀ m ∈ n.merges c, ∀ leaf ∈ m.leaves, leaf ∈ n.providers c m.name := by
  match n with
  | .join spec l r e =>
    have left := l.merges_providers c
    have right := r.merges_providers c
    intro m inside
    by_cases listed : ∃ ns, e = some (.list ns)
    · obtain ⟨ns,rfl⟩ := listed
      rcases Merge.mem_add inside with visible | fresh
      · exact Merge.under_providers left right visible
      · obtain ⟨name,_,rfl⟩ := List.mem_map.mp fresh
        intro leaf here
        refine Merge.mem_providers (List.mem_append.mpr ?_)
        rcases List.mem_append.mp here with first | second
        · obtain ⟨leaf,member,rfl⟩ := List.mem_map.mp first
          exact .inl (List.mem_map_of_mem (Merge.covered_providers left member))
        · obtain ⟨leaf,member,rfl⟩ := List.mem_map.mp second
          exact .inr (List.mem_map_of_mem (Merge.covered_providers right member))
    · rw [merges_visible c spec l r e fun ns same => listed ⟨ns,same⟩] at inside
      exact Merge.under_providers left right inside
  | .table .. | .identifier .. | .constant .. | .column .. | .function .. | .list .. | .runtimeFilter .. => exact nofun

namespace Scope

-- What an unqualified name is bound to.
theorem resolveName_means {s : Scope} (sees : s.Sees c n) (found : s.resolveName place name = .ok a)
    (labelled : n.Labelled c name) : n.Means c name a := by
  rcases s.resolveName_ok.mp found with ⟨t,_,only,rfl⟩ | ⟨u,known,all,rfl⟩
  · rw [sees_providers sees,List.map_eq_singleton_iff] at only
    obtain ⟨leaf,only,rfl⟩ := only
    exact .single only
  · have same := sees_find sees name
    rw [known,Option.map_some,eq_comm,Option.map_eq_some_iff] at same
    obtain ⟨m,visible,same⟩ := same
    simp only [Merge.trace,UsingColumn.trace,Prod.mk.injEq] at same
    have named : u.name = name := by simpa using List.find?_some known
    have named' : m.name = name := by simpa using List.find?_some visible
    rw [UsingColumn.node,named]
    refine .merged visible ?_ same.2.symm
    intro leaf provides
    have inside : leaf.entry c ∈ s.tables ∧ (leaf.entry c).has name = true := by
      have member : leaf.entry c ∈ s.tables.filter (·.has name) := sees_providers sees name ▸ List.mem_map_of_mem provides
      exact List.mem_filter.mp member
    have label : leaf.label ∈ m.leaves.map Leaf.label := same.2 ▸ all _ inside.1 inside.2
    obtain ⟨other,merged,equal⟩ := List.mem_map.mp label
    have provides' := n.merges_providers c m (List.mem_of_find?_eq_some visible) other merged
    rw [named'] at provides'
    exact labelled other provides' leaf provides equal ▸ merged

end Scope

-- Where the names of a join expression stand, what they are bound to stands afterwards.

namespace Node

theorem unbound_child {n m : Node} (unbound : n.Unbound) (child : m ∈ n.children) : m.Unbound := by
  have inside : ∀ k ∈ m.nodes, k ∈ n.nodes := by
    intro k member
    cases n with
    | identifier | constant | table => cases child
    | column name source e =>
      have present : some m = e := by simpa [children,slots,eq_comm] using child
      simp [nodes,nodesOption,← present,member]
    | function name args =>
      obtain rfl : m = args := by simpa [children,slots] using child
      simp [nodes,member]
    | list ns =>
      have known : m ∈ ns := by simpa [children,slots,List.filterMap_map,Function.comp_def] using child
      exact List.mem_cons_of_mem _ (mem_nodesList.mpr ⟨m,known,member⟩)
    | join spec l r e =>
      simp only [children,slots,List.filterMap_cons,id_eq,List.mem_cons] at child
      rcases child with rfl | rfl | child
      · simp [nodes,member]
      · simp [nodes,member]
      · obtain ⟨_,rfl⟩ : ∃ k, e = some k := by cases e <;> simp_all
        obtain rfl : m = _ := by simpa using child
        simp [nodes,nodesOption,member]
    | runtimeFilter id n =>
      obtain rfl : m = n := by simpa [children,slots] using child
      simp [nodes,member]
  exact fun k member => unbound k (inside k member)

theorem bindAllNames_done (done : (bindAllNames s ns).fault = none) :
    (bindAllNames s ns).value = ns.map (fun n => (bindNames s n).value) ∧ ∀ n ∈ ns, (bindNames s n).fault = none := by
  induction ns with
  | nil => exact ⟨rfl,nofun⟩
  | cons n ns ih =>
    obtain ⟨later,mine,value⟩ := Visited.both_done (f := bindAllNames s) (g := bindNames s) (p := (ns,n)) done
    obtain ⟨values,faults⟩ := ih later
    have whole : (bindAllNames s (n :: ns)).value = (bindNames s n).value :: (bindAllNames s ns).value := by
      have same := congrArg (fun p : List Node × Node => p.2 :: p.1) value
      exact same
    refine ⟨by rw [whole,values,List.map_cons],?_⟩
    intro m member
    rcases List.mem_cons.mp member with rfl | inside
    · exact mine
    · exact faults m inside

-- The children of a node with names in it are visited one by one.
theorem bindNames_children (s : Scope) (n : Node) (inner : ∀ parts, n ≠ identifier parts) (other : n.type ≠ .column)
    (done : (bindNames s n).fault = none) :
    (bindNames s n).value.children = n.children.map (fun m => (bindNames s m).value) ∧
      ∀ m ∈ n.children, (bindNames s m).fault = none := by
  cases n with
  | identifier parts => exact absurd rfl (inner parts)
  | column name source e => exact absurd rfl other
  | constant | table => exact ⟨rfl,nofun⟩
  | function name args =>
    have inside : (bindNames s args).fault = none := done
    exact ⟨rfl,by simpa [children,slots] using inside⟩
  | runtimeFilter id m =>
    have inside : (bindNames s m).fault = none := done
    exact ⟨rfl,by simpa [children,slots] using inside⟩
  | list ns =>
    obtain ⟨values,faults⟩ := bindAllNames_done done
    have listed (ns : List Node) : (list ns).children = ns := by simp [children,slots,List.filterMap_map]
    have value : (bindNames s (list ns)).value = list (bindAllNames s ns).value := rfl
    rw [value,listed,listed]
    exact ⟨values,faults⟩
  | join spec l r e =>
    obtain ⟨outer,left,value⟩ :=
      Visited.both_done (f := Visited.both (bindSlotNames s) (bindNames s)) (g := bindNames s) (p := ((e,r),l)) done
    obtain ⟨slot,right,value'⟩ := Visited.both_done (f := bindSlotNames s) (g := bindNames s) (p := (e,r)) outer
    have whole : (bindNames s (join spec l r e)).value =
        join spec (bindNames s l).value (bindNames s r).value (bindSlotNames s e).value := by
      have same := congrArg (fun p : (Option Node × Node) × Node => join spec p.2 p.1.2 p.1.1) value
      rw [value'] at same
      exact same
    rw [whole]
    cases e with
    | none => exact ⟨rfl,by simpa [children,slots] using ⟨left,right⟩⟩
    | some e => exact ⟨rfl,by simpa [children,slots] using ⟨left,right,slot⟩⟩

theorem bindNames_at (s : Scope) (n : Node) (unbound : n.Unbound) (done : (bindNames s n).fault = none)
    (here : n.at? path = some (identifier parts)) : ∃ a, s.resolve parts = .ok a ∧ (bindNames s n).value.at? path = some a := by
  induction path generalizing n with
  | nil =>
    cases here
    cases found : s.resolve parts with
    | ok a =>
      have bound : bindNames s (identifier parts) = ⟨a,[.single parts a],none⟩ := by rw [bindNames,found]
      exact ⟨a,rfl,by rw [bound]; rfl⟩
    | error e => simp [bindNames,found] at done
  | cons i path ih =>
    obtain ⟨m,child,below⟩ := Option.bind_eq_some_iff.mp here
    have member := List.mem_of_getElem? child
    have inner : ∀ parts, n ≠ identifier parts := by
      rintro parts rfl
      cases member
    obtain ⟨children,faults⟩ := bindNames_children s n inner (unbound n (by cases n <;> simp [nodes])) done
    obtain ⟨a,found,there⟩ := ih m (unbound_child unbound member) (faults m member) below
    refine ⟨a,found,?_⟩
    rw [at?,children,List.getElem?_map,child]
    exact there

-- Each entry of a USING list without columns is a name that both sides have.
theorem bindUsing_done (unbound : ∀ m ∈ nodesList ns, m.type ≠ .column) (done : (bindUsing left right ns).fault = none) :
    (bindUsing left right ns).value = ns.map (fun n => (bindUsingEntry left right n).value) ∧
      ∀ n ∈ ns, IsShared left right n := by
  induction ns with
  | nil => exact ⟨rfl,nofun⟩
  | cons n ns ih =>
    obtain ⟨mine,later,value⟩ := Visited.both_done (f := bindUsingEntry left right) (g := bindUsing left right) (p := (n,ns)) done
    obtain ⟨values,names⟩ := ih (fun m member => unbound m (by simp [nodesList,member])) later
    have whole : (bindUsing left right (n :: ns)).value = (bindUsingEntry left right n).value :: (bindUsing left right ns).value := by
      have same := congrArg (fun p : Node × List Node => p.1 :: p.2) value
      exact same
    refine ⟨by rw [whole,values,List.map_cons],?_⟩
    intro m member
    rcases List.mem_cons.mp member with rfl | inside
    · rcases bindUsingEntry_cases left right m with ⟨_,bound⟩ | named
      · obtain ⟨name,e,rfl⟩ := bound mine
        exact absurd rfl (unbound (column name .using e) (by simp [nodesList,nodes]))
      · exact named
    · exact names m inside

end Node

-- The scope of a join has its merged columns.

section
variable {left right : Scope} {l r : Node} (first : left.Sees c l) (second : right.Sees c r)
include first second

theorem Scope.merge_traces : (left.merge right).usingColumns.map UsingColumn.trace =
    (Merge.both (l.merges c) (r.merges c)).map Merge.trace := by
  rw [Scope.merge,Trace.add_using,first.traces,second.traces,Merge.both,Trace.add_merges,Trace.traces_under,Trace.traces_under]

theorem bindUsing_traces {ns : List Node} (names : ∀ n ∈ ns, Node.IsShared left right n) :
    ((ns.map fun n => (Node.bindUsingEntry left right n).value).filterMap UsingColumn.ofNode?).map UsingColumn.trace =
      ((ns.filterMap Node.usingName?).map (Merge.shared c l r (l.merges c) (r.merges c))).map Merge.trace := by
  induction ns with
  | nil => rfl
  | cons n ns ih =>
    have later := ih fun m member => names m (by simp [member])
    obtain ⟨parts,a,b,rfl,single,known,known'⟩ := names n (by simp)
    have bound := Node.bindUsingEntry_name single known known'
    have labels := Scope.mergedLabels_covered first known
    have labels' := Scope.mergedLabels_covered second known'
    have name : Node.usingName? (.identifier parts) = some (Identifier.short parts) := by simp [Node.usingName?,single]
    have column : UsingColumn.ofNode? (Node.usingColumn (Identifier.short parts) a b) =
        some ⟨Identifier.short parts,some (.list [a,b])⟩ := rfl
    simp only [List.map_cons,bound,List.filterMap_cons,column,name,later]
    congr 1
    simp only [UsingColumn.trace,Merge.trace,Merge.shared,mergedByExpression,mergedBySides,labels,labels',List.append_nil,
      List.map_append,List.map_map]
    rfl

theorem bindConstraint_sees (e : Option Node) (spec : JoinSpec) (unbound : ∀ m ∈ Node.nodesOption e, m.type ≠ .column)
    (done : (bindConstraint left right e).1.fault = none) : (bindConstraint left right e).2.Sees c (.join spec l r e) := by
  constructor
  · rw [bindConstraint_tables,first.tables,second.tables,Node.leaves,List.map_append,List.map_map,List.map_map]
    rfl
  · by_cases listed : ∃ ns, e = some (.list ns)
    · obtain ⟨ns,rfl⟩ := listed
      obtain ⟨value,names⟩ := Node.bindUsing_done (fun m member => unbound m (List.mem_cons_of_mem _ member)) done
      rw [bindConstraint]
      simp only [value]
      rw [Trace.add_using,Scope.merge_traces first second,bindUsing_traces first second names,Node.merges,Trace.add_merges]
    · have other : ∀ ns, e ≠ some (.list ns) := fun ns same => listed ⟨ns,same⟩
      have scope : (bindConstraint left right e).2 = left.merge right := by
        cases e with
        | none => rfl
        | some e => rw [bindConstraint_names left right e fun ns same => other ns (congrArg some same)]
      rw [scope,Node.merges_visible c spec l r e other]
      exact Scope.merge_traces first second

-- The names of one join.
theorem bindConstraint_means (e : Option Node) (spec : JoinSpec) (unbound : ∀ m ∈ Node.nodesOption e, m.type ≠ .column)
    (done : (bindConstraint left right e).1.fault = none) :
    (Node.join spec l r e).ExpressionMeans c l r e (bindConstraint left right e).1.value := by
  have sees := bindConstraint_sees first second e spec unbound done
  cases e with
  | none => exact (rfl : _ = none)
  | some e =>
    by_cases listed : ∃ ns, e = .list ns
    · obtain ⟨ns,rfl⟩ := listed
      obtain ⟨value,names⟩ := Node.bindUsing_done (fun m member => unbound m (List.mem_cons_of_mem _ member)) done
      intro i name here
      obtain ⟨parts,a,b,same,single,known,known'⟩ := names _ (List.mem_of_getElem? here)
      cases same
      have bound := Node.bindUsingEntry_name single known known'
      refine ⟨(Node.bindUsing left right ns).value,a,b,rfl,?_,Scope.resolveName_means first known,Scope.resolveName_means second known'⟩
      rw [value,List.getElem?_map,here,Option.map_some,bound]
      rfl
    · have other : ∀ ns, e ≠ .list ns := fun ns same => listed ⟨ns,same⟩
      have bound := bindConstraint_names left right e other
      rw [bound] at sees done ⊢
      have means (path : List Nat) (name : String) (here : e.at? path = some (.identifier [name])) : ∃ b a,
          some (Node.bindNames (left.merge right) e).value = some b ∧ b.at? path = some a ∧
            ((Node.join spec l r (some e)).Labelled c name → (Node.join spec l r (some e)).Means c name a) := by
        obtain ⟨a,found,there⟩ := Node.bindNames_at (left.merge right) e unbound done here
        rw [Scope.resolve_single _ rfl] at found
        exact ⟨_,a,rfl,there,Scope.resolveName_means sees found⟩
      cases e with
      | list ns => exact absurd rfl (other ns)
      | _ => exact means

end

-- The same where no column occurs, so that none occurs on the sides of a join either.
theorem Resolution.induct_unbound {P : Node → Scope → Prop}
    (table : ∀ name asName columns, c.columns? name = some columns → P (.table name asName) ⟨[⟨⟨name,asName⟩,columns⟩],[]⟩)
    (join : ∀ spec l r e left right, l.Unbound → r.Unbound → (∀ m ∈ Node.nodesOption e, m.type ≠ .column) →
      (l.resolve c).outcome = .ok left → (r.resolve c).outcome = .ok right → (bindConstraint left right e).1.fault = none →
      P l left → P r right → P (.join spec l r e) (bindConstraint left right e).2)
    (n : Node) (unbound : n.Unbound) (done : (n.resolve c).outcome = .ok s) : P n s := by
  refine induct (P := fun n s => n.Unbound → P n s) ?table ?join n done unbound
  case table => exact fun name asName columns known _ => table name asName columns known
  case join =>
    intro spec l r e left right first second bound holds holds' unbound
    have unboundLeft : l.Unbound := fun m member => unbound m (by simp [Node.nodes,member])
    have unboundRight : r.Unbound := fun m member => unbound m (by simp [Node.nodes,member])
    exact join spec l r e left right unboundLeft unboundRight (fun m member => unbound m (by simp [Node.nodes,member])) first second
      bound (holds unboundLeft) (holds' unboundRight)

theorem Resolution.sees (n : Node) (unbound : n.Unbound) (done : (n.resolve c).outcome = .ok s) : s.Sees c n := by
  refine induct_unbound (P := fun n s => s.Sees c n) ?table ?join n unbound done
  case table =>
    intro name asName columns known
    exact ⟨tables_leaves _ (table_ok.mpr ⟨columns,known,rfl⟩),rfl⟩
  case join =>
    intro spec l r e left right _ _ unbound _ _ bound first second
    exact bindConstraint_sees first second e spec unbound bound

-- Every unqualified name that a resolution bound, in whatever join of the tree, means what it has to.
theorem Node.resolve_means (c : Catalog) (n : Node) (s : Scope) (unbound : n.Unbound) (done : (n.resolve c).outcome = .ok s)
    (path : List Nat) (sides : ∀ i ∈ path, i < 2) (here : n.at? path = some (.join spec l r e)) :
    ∃ l' r' e', (n.resolve c).tree.at? path = some (.join spec l' r' e') ∧ (Node.join spec l r e).ExpressionMeans c l r e e' := by
  induction path generalizing n s with
  | nil =>
    cases here
    obtain ⟨left,right,first,second,bound,rfl⟩ := Resolution.join_ok.mp done
    have left' := Resolution.sees l (fun m member => unbound m (by simp [nodes,member])) first
    have right' := Resolution.sees r (fun m member => unbound m (by simp [nodes,member])) second
    rw [Resolution.join_tree first second]
    exact ⟨_,_,_,rfl,bindConstraint_means left' right' e spec (fun m member => unbound m (by simp [nodes,member])) bound⟩
  | cons i path ih =>
    match n with
    | .table .. => cases here
    | .join spec' l' r' e' =>
      obtain ⟨left,right,first,second,_,rfl⟩ := Resolution.join_ok.mp done
      rw [Resolution.join_tree first second]
      have later := fun j member => sides j (List.mem_cons_of_mem _ member)
      match i, sides i (by simp) with
      | 0, _ => exact ih l' left (fun m member => unbound m (by simp [nodes,member])) first later here
      | 1, _ => exact ih r' right (fun m member => unbound m (by simp [nodes,member])) second later here
    | .identifier .. | .constant .. | .column .. | .function .. | .list .. | .runtimeFilter .. => cases done

-- Two USING joins in a row merge `id` of three tables, and the condition behind them means that column.
theorem Node.resolve_means_chained :
    let c : Catalog := [("t1",["id"]),("t2",["id"]),("t3",["id"]),("t4",["z"])]
    let l : Node := .join {} (.join {} (.table "t1" none) (.table "t2" (some "b")) (some (.list [ident "id"]))) (.table "t3" none)
      (some (.list [ident "id"]))
    let r : Node := .table "t4" none
    let e : Node := call "equals" [ident "id",ident "z"]
    let n : Node := .join {} l r (some e)
    let column (label : String) : Node := .column "id" (.table label) none
    let id : Node := usingColumn "id" (usingColumn "id" (column "t1") (column "b")) (column "t3")
    n.Unbound ∧ (∃ s, (n.resolve c).outcome = .ok s) ∧ n.Labelled c "id" ∧
      (n.resolve c).tree.at? [2,0,0] = some id ∧ n.Means c "id" id := by
  intro c l r e n column id
  have unbound : n.Unbound := by
    have all : ∀ m ∈ n.nodes, m.type ≠ .column := by decide +kernel
    exact all
  have done : (n.resolve c).outcome = .ok _ := rfl
  have labelled : n.Labelled c "id" := by
    unfold Labelled
    decide +kernel
  obtain ⟨l',r',e',tree,means⟩ := resolve_means c n _ unbound done [] nofun rfl
  have bound : (n.resolve c).tree = .join {} (l.resolve c).tree (r.resolve c).tree
    (some (call "equals" [id,.column "z" (.table "t4") none])) := rfl
  cases (congrArg some bound).symm.trans tree
  obtain ⟨_,a,same,there,meant⟩ := means [0,0] "id" rfl
  cases same
  cases there
  exact ⟨unbound,⟨_,done⟩,labelled,rfl,meant labelled⟩

-- A third table under the label of the first one is not seen beside the merged column.
theorem Node.repeated_label_missed :
    let c : Catalog := [("t1",["id"]),("t2",["id"]),("t3",["id"])]
    let l : Node := .join {} (.table "t1" (some "a")) (.table "t2" (some "b")) (some (.list [ident "id"]))
    let n : Node := .join {} l (.table "t3" (some "a")) (some (call "equals" [ident "id",.constant (.int 1)]))
    let id : Node := usingColumn "id" (.column "id" (.table "a") none) (.column "id" (.table "b") none)
    n.Unbound ∧ (∃ s, (n.resolve c).outcome = .ok s) ∧ n.at? [2,0,0] = some (ident "id") ∧
      (n.resolve c).tree.at? [2,0,0] = some id ∧ ¬ n.Means c "id" id := by
  intro c l n id
  have unbound : n.Unbound := by
    have all : ∀ m ∈ n.nodes, m.type ≠ .column := by decide +kernel
    exact all
  refine ⟨unbound,⟨_,rfl⟩,rfl,rfl,fun means => ?_⟩
  generalize bound : id = a at means
  cases means with
  | single => simp [id,usingColumn] at bound
  | merged visible all labels =>
    have found : (n.merges c).find? (·.name = "id") =
        some ⟨"id",[⟨[0,0],⟨"t1",some "a"⟩⟩,⟨[0,1],⟨"t2",some "b"⟩⟩]⟩ := by decide +kernel
    cases found.symm.trans visible
    have third := all ⟨[1],⟨"t3",some "a"⟩⟩ (by decide +kernel)
    revert third
    decide

end JoinTree
