import JoinTree.Proofs.Rebuilding
import JoinTree.Proofs.Resolving

/-!
The columns of a resolved tree written as names again. Main statement: the names mean the same columns, so that
resolving them gives the same tree and the same scope.
-/

namespace JoinTree

namespace Node

-- A tree with each column as the name that it is written with.
mutual
def named : Node → Node
  | column name (.table label) _ => identifier [label,name]
  | column name .using _ => identifier [name]
  | function name args => function name args.named
  | list nodes => list (namedList nodes)
  | join spec l r e => join spec l.named r.named (namedOption e)
  | runtimeFilter id c => runtimeFilter id c.named
  | n@(identifier _) | n@(constant _) | n@(table ..) => n
def namedList : List Node → List Node
  | [] => []
  | n :: ns => n.named :: namedList ns
def namedOption : Option Node → Option Node
  | none => none
  | some n => some n.named
end

end Node

namespace Visited

-- After a visit without a fault, `again` takes its result back to something that the same visit brings to that result.
structure Recovers (visit : α → Visited α) (again : α → α) (a : α) : Prop where
  value : (visit a).fault = none → (visit (again (visit a).value)).value = (visit a).value
  fault : (visit a).fault = none → (visit (again (visit a).value)).fault = none

theorem both_recovers {again : α → α} {again' : β → β} (first : Recovers f again a) (second : Recovers g again' b) :
    Recovers (both f g) (Prod.map again again') (a,b) := by
  constructor
  · intro done
    obtain ⟨done,done',value⟩ := both_done done
    rw [value,both,andThen_value]
    simp [first.value done,first.fault done,second.value done']
  · intro done
    obtain ⟨done,done',value⟩ := both_done done
    rw [value,both,andThen_fault]
    simp [first.fault done,second.fault done']

theorem map_recovers {f : α → Visited α} {visit : β → Visited β} {again : α → α} {again' : β → β} (whole : α → β)
    (recovers : Recovers f again a) (parts : ∀ a, visit (whole a) = (f a).map whole)
    (back : again' (whole (f a).value) = whole (again (f a).value)) : Recovers visit again' (whole a) := by
  constructor
  · intro done
    rw [parts] at done ⊢
    rw [map_value,back,parts,map_value,recovers.value done]
  · intro done
    rw [parts] at done ⊢
    rw [map_value,back,parts,map_fault,recovers.fault done]

theorem idle_recovers {visit : α → Visited α} {again : α → α} (idle : (visit a).value = a) (kept : again a = a) :
    Recovers visit again a := by
  constructor
  · intro done
    rw [idle,kept,idle]
  · intro done
    rw [idle,kept,done]

end Visited

open Visited (Recovers)

-- The last part of a name has no dot.
theorem lastPart_undotted (name : String) : '.' ∉ (lastPart name).toList := by
  intro member
  simp only [lastPart,String.toList_ofList,List.mem_reverse] at member
  have kept := List.all_eq_true.mp List.all_takeWhile _ member
  simp at kept

theorem lastPart_eq {name : String} (undotted : '.' ∉ name.toList) : lastPart name = name := by
  have all : ∀ c ∈ name.toList.reverse, decide (c ≠ '.') = true := by
    intro c member
    simp only [List.mem_reverse] at member
    simp only [decide_eq_true_eq]
    rintro rfl
    exact undotted member
  have whole : (name.toList.reverse ++ []).takeWhile (fun c => decide (c ≠ '.')) = name.toList.reverse ++ [] :=
    List.takeWhile_append_of_pos all
  rw [List.append_nil] at whole
  rw [lastPart,whole,List.reverse_reverse,String.ofList_toList]

namespace TableName

theorem matches_label (t : TableName) : t.matchesQualifier [t.label] = true := by
  rcases t with ⟨name,_ | a⟩ <;> simp [matchesQualifier,label]

-- What a label names has every other name of the labelled table too, unless an alias looks like a name with a dot.
theorem matches_of_label {t u : TableName} (undotted : ∀ a ∈ u.asName, '.' ∉ a.toList) (known : t.matchesQualifier q = true)
    (named : u.matchesQualifier [t.label] = true) : u.matchesQualifier q = true := by
  obtain ⟨name,_ | given⟩ := t
  · have shared : ".".intercalate q = name ∨ ".".intercalate q = lastPart name := by simpa [matchesQualifier] using known
    rcases shared with full | last
    · simpa [matchesQualifier,label,full] using named
    · obtain ⟨other,_ | given⟩ := u
      · have same : name = other ∨ name = lastPart other := by simpa [matchesQualifier,label] using named
        rcases same with rfl | rfl
        · simp [matchesQualifier,last]
        · simp [matchesQualifier,last,lastPart_eq (lastPart_undotted other)]
      · have same : name = given := by simpa [matchesQualifier,label] using named
        subst same
        simp [matchesQualifier,last,lastPart_eq (undotted name rfl)]
  · have same : ".".intercalate q = given := by simpa [matchesQualifier] using known
    simpa [matchesQualifier,label,same] using named

end TableName

namespace Scope

-- The aliases in a scope have no dot.
def Undotted (s : Scope) : Prop := ∀ t ∈ s.tables, ∀ a ∈ t.table.asName, '.' ∉ a.toList

theorem filter_single {xs : List α} {p p' : α → Bool} (only : xs.filter p = [a]) (mine : p' a = true)
    (less : ∀ b ∈ xs, p' b = true → p b = true) : xs.filter p' = [a] := by
  have twice : xs.filter p' = (xs.filter p).filter p' := by
    rw [List.filter_filter]
    refine List.filter_congr fun b member => ?_
    cases inside : p' b with
    | false => rfl
    | true => simp [less b member inside]
  rw [twice,only]
  simp [mine]

-- A column of a table means itself behind the label of the table.
theorem resolve_label (s : Scope) (name : String) {p : ScopeTable → Bool} (only : s.tables.filter p = [t]) (has : t.has name = true)
    (less : ∀ u ∈ s.tables, u.table.matchesQualifier [t.label] = true → u.has name = true → p u = true) :
    s.resolve [t.label,name] = .ok (t.column name) := by
  refine (s.resolve_compound rfl).mpr ⟨t,filter_single only ?_ ?_,rfl⟩
  · have mine : t.table.matchesQualifier [t.label] = true := t.table.matches_label
    simp [Identifier.qualifier,Identifier.short,mine,has]
  · intro u member both
    simp only [Identifier.qualifier,Identifier.short,Bool.and_eq_true] at both
    exact less u member both.1 both.2

-- What an identifier means is written with a name that means the same.
theorem resolve_written (s : Scope) (undotted : s.Undotted) (found : s.resolve parts = .ok n) :
    ∃ parts', n.named = .identifier parts' ∧ s.resolve parts' = .ok n := by
  cases compound : Identifier.isCompound parts with
  | true =>
    obtain ⟨t,only,rfl⟩ := (s.resolve_compound compound).mp found
    have member := table_of_single only
    simp only [Bool.and_eq_true] at member
    refine ⟨_,rfl,s.resolve_label _ only member.2.2 fun u inside label has => ?_⟩
    simp only [has,Bool.and_true]
    exact TableName.matches_of_label (undotted u inside) member.2.1 label
  | false =>
    rw [s.resolve_single compound,resolveName_ok] at found
    rcases found with ⟨t,_,only,rfl⟩ | ⟨c,known,all,rfl⟩
    · exact ⟨_,rfl,s.resolve_label _ only (table_of_single only).2 fun u _ _ has => has⟩
    · have same : c.name = Identifier.short parts := by simpa using List.find?_some known
      refine ⟨[c.name],rfl,?_⟩
      rw [s.resolve_single rfl,resolveName_ok]
      exact .inr ⟨c,by rw [same]; exact known,by rw [same]; exact all,rfl⟩

end Scope

-- Trees without columns.

def Node.Unbound (n : Node) : Prop := ∀ m ∈ n.nodes, m.type ≠ .column

namespace Node

mutual
theorem bindNames_recovers (s : Scope) (undotted : s.Undotted) : (n : Node) → n.Unbound → Recovers (bindNames s) named n
  | identifier parts, _ => by
    cases found : s.resolve parts with
    | error e =>
      have failed : (bindNames s (identifier parts)).fault = some e := by simp [bindNames,found]
      constructor <;> intro done <;> cases failed.symm.trans done
    | ok c =>
      have bound : bindNames s (identifier parts) = ⟨c,[.single parts c],none⟩ := by rw [bindNames,found]
      obtain ⟨parts',named,again⟩ := s.resolve_written undotted found
      have bound' : bindNames s c.named = ⟨c,[.single parts' c],none⟩ := by rw [named,bindNames,again]
      constructor
      · intro _
        rw [bound,bound']
      · intro _
        rw [bound,bound']
  | constant _, _ | table .., _ => Visited.idle_recovers rfl rfl
  | column .., unbound => absurd rfl (unbound _ (List.mem_cons_self ..))
  | function name args, unbound =>
    Visited.map_recovers (function name) (bindNames_recovers s undotted args fun m member => unbound m (List.mem_cons_of_mem _ member))
      (fun _ => rfl) rfl
  | list nodes, unbound =>
    Visited.map_recovers list (bindAllNames_recovers s undotted nodes fun m member => unbound m (List.mem_cons_of_mem _ member))
      (fun _ => rfl) rfl
  | join spec l r e, unbound =>
    Visited.map_recovers (fun ((e,r),l) => join spec l r e)
      (Visited.both_recovers
        (Visited.both_recovers (bindSlotNames_recovers s undotted e fun m member => unbound m (by simp [nodes,member]))
          (bindNames_recovers s undotted r fun m member => unbound m (by simp [nodes,member])))
        (bindNames_recovers s undotted l fun m member => unbound m (by simp [nodes,member])))
      (fun _ => rfl) rfl
  | runtimeFilter id c, unbound =>
    Visited.map_recovers (runtimeFilter id) (bindNames_recovers s undotted c fun m member => unbound m (List.mem_cons_of_mem _ member))
      (fun _ => rfl) rfl
theorem bindAllNames_recovers (s : Scope) (undotted : s.Undotted) :
    (ns : List Node) → (∀ m ∈ nodesList ns, m.type ≠ .column) → Recovers (bindAllNames s) namedList ns
  | [], _ => Visited.idle_recovers rfl rfl
  | n :: ns, unbound =>
    Visited.map_recovers (fun (ns,n) => n :: ns)
      (Visited.both_recovers (bindAllNames_recovers s undotted ns fun m member => unbound m (by simp [nodesList,member]))
        (bindNames_recovers s undotted n fun m member => unbound m (by simp [nodesList,member])))
      (fun _ => rfl) rfl
theorem bindSlotNames_recovers (s : Scope) (undotted : s.Undotted) :
    (e : Option Node) → (∀ m ∈ nodesOption e, m.type ≠ .column) → Recovers (bindSlotNames s) namedOption e
  | none, _ => Visited.idle_recovers rfl rfl
  | some n, unbound => Visited.map_recovers some (bindNames_recovers s undotted n unbound) (fun _ => rfl) rfl
end

-- A name that both sides have is written as itself.
theorem bindUsingEntry_recovers (left right : Scope) (n : Node) (unbound : n.Unbound) :
    Recovers (bindUsingEntry left right) named n := by
  rcases bindUsingEntry_cases left right n with ⟨_,bound⟩ | ⟨parts,l,r,rfl,single,first,second⟩
  · have never (done : (bindUsingEntry left right n).fault = none) : False := by
      obtain ⟨name,e,rfl⟩ := bound done
      exact unbound _ (List.mem_cons_self ..) rfl
    exact ⟨fun done => (never done).elim,fun done => (never done).elim⟩
  · have bound := bindUsingEntry_name single first second
    have again : bindUsingEntry left right (identifier [Identifier.short parts]) =
        ⟨usingColumn (Identifier.short parts) l r,[.shared (Identifier.short parts)],none⟩ := bindUsingEntry_name rfl first second
    constructor
    · intro _
      rw [bound,usingColumn,named,again]
      rfl
    · intro _
      rw [bound,usingColumn,named,again]

theorem bindUsing_recovers (left right : Scope) (ns : List Node) (unbound : ∀ m ∈ nodesList ns, m.type ≠ .column) :
    Recovers (bindUsing left right) namedList ns := by
  induction ns with
  | nil => exact Visited.idle_recovers rfl rfl
  | cons n ns ih =>
    have entries := Visited.both_recovers
      (bindUsingEntry_recovers left right n fun m member => unbound m (by simp [nodesList,member]))
      (ih fun m member => unbound m (by simp [nodesList,member]))
    have parts (p : Node × List Node) : bindUsing left right (p.1 :: p.2) =
        (Visited.both (bindUsingEntry left right) (bindUsing left right) p).map fun q => q.1 :: q.2 := rfl
    refine Visited.map_recovers (fun q => q.1 :: q.2) entries parts ?_
    exact rfl

theorem named_list (n : Node) (other : ∀ ns, n ≠ list ns) (ns : List Node) : n.named ≠ list ns := by
  cases n with
  | list ns => exact absurd rfl (other ns)
  | column name source e =>
    rcases source with label | _
    · exact fun same => by cases same
    · exact fun same => by cases same
  | _ => exact fun same => by cases same

end Node

theorem bindConstraint_recovers (left right : Scope) (undotted : (left.merge right).Undotted) (e : Option Node)
    (unbound : ∀ m ∈ Node.nodesOption e, m.type ≠ .column) (done : (bindConstraint left right e).1.fault = none) :
    let e' := Node.namedOption (bindConstraint left right e).1.value
    (bindConstraint left right e').1.value = (bindConstraint left right e).1.value ∧
      (bindConstraint left right e').1.fault = none ∧ (bindConstraint left right e').2 = (bindConstraint left right e).2 := by
  cases e with
  | none => exact ⟨rfl,rfl,rfl⟩
  | some e =>
    by_cases listed : ∃ ns, e = .list ns
    · obtain ⟨ns,rfl⟩ := listed
      have recovers := Node.bindUsing_recovers left right ns fun m member => unbound m (List.mem_cons_of_mem _ member)
      have value := recovers.value done
      have fault := recovers.fault done
      simp only [bindConstraint,Visited.map_value,Node.namedOption,Node.named,value,Visited.map_fault,fault,and_self]
    · have other : ∀ ns, e ≠ .list ns := fun ns same => listed ⟨ns,same⟩
      have first := bindConstraint_names left right e other
      have second := bindConstraint_names left right _ (Node.named_list _ (Node.bindNames_list (left.merge right) e other))
      rw [first] at done
      have recovers := Node.bindNames_recovers (left.merge right) undotted e unbound
      have value := recovers.value done
      have fault := recovers.fault done
      simp only [first,Visited.map_value,Node.namedOption,second,value,Visited.map_fault,fault,and_self]

-- The names of a resolved tree are resolved to the same tree and the same scope.
theorem Node.resolve_named (c : Catalog) (n : Node) (s : Scope) (unbound : n.Unbound)
    (undotted : ∀ l ∈ n.leaves, ∀ a ∈ l.table.asName, '.' ∉ a.toList) (done : (n.resolve c).outcome = .ok s) :
    ((n.resolve c).tree.named.resolve c).tree = (n.resolve c).tree ∧ ((n.resolve c).tree.named.resolve c).outcome = .ok s := by
  match n with
  | .table .. => exact ⟨rfl,done⟩
  | .join spec l r e =>
    obtain ⟨left,right,first,second,bound,rfl⟩ := Resolution.join_ok.mp done
    have sides : ∀ t ∈ l.leaves ++ r.leaves, ∀ a ∈ t.table.asName, '.' ∉ a.toList := by
      intro t member
      rcases List.mem_append.mp member with inside | inside
      · exact undotted (t.under 0) (by simp [leaves,List.mem_map_of_mem inside])
      · exact undotted (t.under 1) (by simp [leaves,List.mem_map_of_mem inside])
    have scope : (left.merge right).Undotted := by
      intro t member
      rw [Scope.merge_tables,Resolution.tables_leaves l first,Resolution.tables_leaves r second,← List.map_append] at member
      obtain ⟨leaf,inside,rfl⟩ := List.mem_map.mp member
      exact sides leaf inside
    obtain ⟨tree,outcome⟩ := l.resolve_named c left (fun m member => unbound m (by simp [nodes,member]))
      (fun t member => sides t (by simp [member])) first
    obtain ⟨tree',outcome'⟩ := r.resolve_named c right (fun m member => unbound m (by simp [nodes,member]))
      (fun t member => sides t (by simp [member])) second
    obtain ⟨value,fault,same⟩ := bindConstraint_recovers left right scope e (fun m member => unbound m (by simp [nodes,member])) bound
    rw [Resolution.join_tree first second,named,Resolution.join_tree outcome outcome',tree,tree',value]
    exact ⟨rfl,Resolution.join_ok.mpr ⟨left,right,outcome,outcome',fault,same⟩⟩
  | .identifier .. | .constant .. | .column .. | .function .. | .list .. | .runtimeFilter .. => cases done

theorem Node.resolve_named_qualified :
    let c : Catalog := [("db.orders",["id","total"]),("users",["id","name"]),("items",["total"])]
    let ids : Node := .join {} (.table "db.orders" none) (.table "users" (some "u")) (some (.list [ident "id"]))
    let n : Node := .join { kind := .left } ids (.table "items" none)
      (some (call "and" [call "equals" [.identifier ["orders","total"],.identifier ["items","total"]],
        call "less" [ident "name",ident "id"]]))
    let names : Node := .join { kind := .left } ids (.table "items" none)
      (some (call "and" [call "equals" [.identifier ["db.orders","total"],.identifier ["items","total"]],
        call "less" [.identifier ["u","name"],ident "id"]]))
    let s : Scope := ⟨[⟨⟨"db.orders",none⟩,["id","total"]⟩,⟨⟨"users",some "u"⟩,["id","name"]⟩,⟨⟨"items",none⟩,["total"]⟩],
      [⟨"id",some (.list [.column "id" (.table "db.orders") none,.column "id" (.table "u") none])⟩]⟩
    (n.Unbound ∧ (∀ l ∈ n.leaves, ∀ a ∈ l.table.asName, '.' ∉ a.toList) ∧ (n.resolve c).outcome = .ok s) ∧
      (n.resolve c).tree.named = names ∧ (names.resolve c).tree = (n.resolve c).tree ∧ (names.resolve c).outcome = .ok s := by
  intro c ids n names s
  have unbound : n.Unbound := by
    have all : ∀ m ∈ n.nodes, m.type ≠ .column := by decide +kernel
    exact all
  have undotted : ∀ l ∈ n.leaves, ∀ a ∈ l.table.asName, '.' ∉ a.toList := by decide +kernel
  have done : (n.resolve c).outcome = .ok s := rfl
  exact ⟨⟨unbound,undotted,done⟩,rfl,resolve_named c n s unbound undotted done⟩

end JoinTree
