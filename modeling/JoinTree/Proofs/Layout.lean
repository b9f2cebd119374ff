import JoinTree.Proofs.TreeEquality
import JoinTree.Tree.Dump

/-!
The layout of a dump. Main statement: a dump has the nodes of the tree one after the other in the order of the slots, each
under the title of its section where it has one, numbered from zero, and indented by the slots that lead to it.
-/

namespace JoinTree

-- The title over a slot. The slots of a list have none.
def NodeType.title? : NodeType → Nat → Option String
  | column,0 | runtimeFilter,0 => some "EXPRESSION"
  | function,0 => some "ARGUMENTS"
  | join,0 => some "LEFT TABLE EXPRESSION"
  | join,1 => some "RIGHT TABLE EXPRESSION"
  | join,2 => some "JOIN EXPRESSION"
  | _,_ => none

namespace Node

def entriesText : Node → String
  | list nodes => s!", nodes: {nodes.length}"
  | _ => ""

-- What a dump has for a node: its type, its number, its scalars, and in a list the number of entries.
def headline (indent id : Nat) (n : Node) : String :=
  blanks indent ++ n.type.text ++ " id: " ++ toString id ++ n.scalars.dumpText ++ n.entriesText

theorem headline_eq (indent id : Nat) (n : Node) : n.headline indent id = n.header indent id ++ n.entriesText := rfl

end Node

-- A node of a tree, with the slots that lead to it and the titles over them.
structure Place where
  path : List Nat
  titles : List (Option String)
  node : Node

namespace Place

def root (n : Node) : Place := ⟨[],[],n⟩

-- The same node, seen from the node above.
def below (i : Nat) (title : Option String) (p : Place) : Place := ⟨i :: p.path,title :: p.titles,p.node⟩

def step (title : Option String) : Nat := if title.isSome then 4 else 2

def indent (start : Nat) (p : Place) : Nat := p.titles.foldl (fun n title => n + step title) start

-- The title over the last slot stands in front of the node.
def lines (start id : Nat) (p : Place) : List String :=
  p.titles.getLast?.join.toList.map (Node.blanks (p.indent start - 2) ++ ·) ++ [p.node.headline (p.indent start) id]

-- Numbered places one after the other.
def layout (start id : Nat) (ps : List Place) : List String := (ps.zipIdx id).flatMap fun (p,id) => p.lines start id

end Place

namespace Node

-- The place to which a path leads, if it leads to a node.
def place? (n : Node) : List Nat → Option Place
  | [] => some (.root n)
  | i :: path => n.slots[i]?.join.bind fun c => (c.place? path).map (·.below i (n.type.title? i))

-- All places, a node before the nodes below it and these slot by slot.
mutual
def preorder (n : Node) : List Place := .root n :: preorderIn n.type 0 n.slots
termination_by (n.size,0)
decreasing_by
  rw [size_eq]
  exact .left _ _ (by omega)
def preorderIn (type : NodeType) (i : Nat) : List (Option Node) → List Place
  | [] => []
  | none :: slots => preorderIn type (i + 1) slots
  | some c :: slots => c.preorder.map (·.below i (type.title? i)) ++ preorderIn type (i + 1) slots
termination_by slots => (slotsSize slots,slots.length + 1)
decreasing_by
  · exact .right' _ (by simp [slotsSize]) (by simp)
  · exact .right' _ (by simp [slotsSize,sizeOption]) (by simp)
  · exact .right' _ (by simp [slotsSize]) (by simp)
end

-- The places in slots, the first of which has the number `i`.
theorem mem_preorderIn {type : NodeType} {slots : List (Option Node)} {p : Place} : p ∈ preorderIn type i slots ↔
    ∃ (j : Nat) (c : Node), slots[j]? = some (some c) ∧ ∃ q ∈ c.preorder, q.below (i + j) (type.title? (i + j)) = p := by
  induction slots generalizing i with
  | nil => simp [preorderIn]
  | cons slot slots ih =>
    have later : p ∈ preorderIn type (i + 1) slots ↔ ∃ (j : Nat) (c : Node), (slot :: slots)[j + 1]? = some (some c) ∧
        ∃ q ∈ c.preorder, q.below (i + (j + 1)) (type.title? (i + (j + 1))) = p := by
      simp only [ih,List.getElem?_cons_succ,Nat.add_assoc,Nat.add_comm 1]
    rw [← Nat.or_exists_add_one,← later]
    cases slot with
    | none => simp [preorderIn]
    | some c => simp [preorderIn]

theorem place?_cons_iff {n : Node} {p : Place} : n.place? (i :: path) = some p ↔
    ∃ c, n.slots[i]? = some (some c) ∧ ∃ q, c.place? path = some q ∧ q.below i (n.type.title? i) = p := by
  simp only [place?,Option.bind_eq_some_iff,Option.map_eq_some_iff,Option.join_eq_some_iff]

theorem mem_preorder (n : Node) (path : List Nat) (p : Place) :
    n.place? path = some p ↔ p ∈ n.preorder ∧ p.path = path := by
  induction n using induct_slots generalizing path p with
  | above n ih =>
    rw [preorder,List.mem_cons,mem_preorderIn]
    simp only [Nat.zero_add]
    cases path with
    | nil =>
      constructor
      · intro found
        cases found
        exact ⟨.inl rfl,rfl⟩
      · rintro ⟨rfl | ⟨_,_,_,_,_,rfl⟩,here⟩
        · rfl
        · cases here
    | cons i path =>
      rw [place?_cons_iff]
      constructor
      · rintro ⟨c,inside,q,there,rfl⟩
        obtain ⟨listed,same⟩ := (ih c (List.mem_of_getElem? inside) path q).mp there
        exact ⟨.inr ⟨i,c,inside,q,listed,rfl⟩,congrArg (i :: ·) same⟩
      · rintro ⟨rfl | ⟨j,c,inside,q,listed,rfl⟩,here⟩
        · cases here
        · obtain ⟨rfl,rfl⟩ := List.cons.inj here
          exact ⟨c,inside,q,(ih c (List.mem_of_getElem? inside) _ q).mpr ⟨listed,rfl⟩,rfl⟩

-- The order of the places is that of the paths to them.

theorem preorderIn_sorted {type : NodeType} {slots : List (Option Node)}
    (inner : ∀ c, some c ∈ slots → c.preorder.Pairwise (·.path < ·.path)) :
    (preorderIn type i slots).Pairwise (·.path < ·.path) := by
  induction slots generalizing i with
  | nil =>
    rw [preorderIn]
    exact .nil
  | cons slot slots ih =>
    have later : (preorderIn type (i + 1) slots).Pairwise (·.path < ·.path) :=
      ih fun c within => inner c (List.mem_cons_of_mem _ within)
    cases slot with
    | none => rwa [preorderIn]
    | some c =>
      rw [preorderIn,List.pairwise_append,List.pairwise_map]
      refine ⟨?_,later,?_⟩
      · exact (inner c List.mem_cons_self).imp fun less => List.cons_lt_cons_iff.mpr (.inr ⟨rfl,less⟩)
      · intro p first q second
        obtain ⟨p,_,rfl⟩ := List.mem_map.mp first
        obtain ⟨j,_,_,q,_,rfl⟩ := mem_preorderIn.mp second
        exact List.cons_lt_cons_iff.mpr (.inl (by omega))

theorem preorder_sorted (n : Node) : n.preorder.Pairwise (·.path < ·.path) := by
  induction n using induct_slots with
  | above n ih =>
    rw [preorder,List.pairwise_cons]
    refine ⟨fun p below => ?_,preorderIn_sorted ih⟩
    obtain ⟨_,_,_,_,_,rfl⟩ := mem_preorderIn.mp below
    exact List.nil_lt_cons _ _

theorem length_preorderIn {type : NodeType} {slots : List (Option Node)}
    (inner : ∀ c, some c ∈ slots → c.preorder.length = c.size) :
    (preorderIn type i slots).length = slotsSize slots := by
  induction slots generalizing i with
  | nil =>
    rw [preorderIn]
    rfl
  | cons slot slots ih =>
    have later : (preorderIn type (i + 1) slots).length = slotsSize slots :=
      ih fun c within => inner c (List.mem_cons_of_mem _ within)
    cases slot with
    | none => rw [preorderIn,later,slotsSize,sizeOption,Nat.zero_add]
    | some c => rw [preorderIn,List.length_append,List.length_map,later,inner c List.mem_cons_self,slotsSize,sizeOption]

theorem length_preorder (n : Node) : n.preorder.length = n.size := by
  induction n using induct_slots with
  | above n ih => rw [preorder,List.length_cons,length_preorderIn ih,size_eq,Nat.add_comm]

end Node

namespace Place

-- Lines behind other lines.
def behind (ls : List String) : String := .join (ls.map ("\n" ++ ·))

theorem behind_cons (l : String) (ls : List String) : behind (l :: ls) = "\n" ++ (l ++ behind ls) := by
  rw [behind,List.map_cons,String.join_cons,String.append_assoc]
  rfl

theorem behind_append (ls ms : List String) : behind (ls ++ ms) = behind ls ++ behind ms := by
  rw [behind,List.map_append,String.join_append]
  rfl

theorem intercalate_cons (l : String) (ls : List String) : "\n".intercalate (l :: ls) = l ++ behind ls := by
  induction ls generalizing l with
  | nil =>
    rw [String.intercalate_singleton]
    exact String.append_empty.symm
  | cons m ls ih => rw [String.intercalate_cons_cons,ih,behind_cons,String.append_assoc]

variable {start id : Nat}

theorem layout_cons (p : Place) (ps : List Place) :
    layout start id (p :: ps) = p.lines start id ++ layout start (id + 1) ps := by
  rw [layout,List.zipIdx_cons,List.flatMap_cons]
  rfl

theorem layout_append (ps qs : List Place) :
    layout start id (ps ++ qs) = layout start id ps ++ layout start (id + ps.length) qs := by
  rw [layout,List.zipIdx_append,List.flatMap_append]
  rfl

-- The title of the node is the last one, and every title moves it to the right.
theorem lines_below {p : Place} (i : Nat) (title : Option String) (inner : p.titles ≠ []) :
    (p.below i title).lines start id = p.lines (start + step title) id := by
  obtain ⟨first,later,titles⟩ := List.exists_cons_of_ne_nil inner
  rw [lines,lines,below,titles,List.getLast?_cons_cons,indent,indent,titles,List.foldl_cons]

theorem lines_below_root (i : Nat) (title : Option String) (n : Node) : ((root n).below i title).lines start id =
    title.toList.map (Node.blanks (start + 2) ++ ·) ++ [n.headline (start + step title) id] := by
  cases title <;> rfl

theorem layout_below {ps : List Place} (i : Nat) (title : Option String) (inner : ∀ p ∈ ps, p.titles ≠ []) :
    layout start id (ps.map (·.below i title)) = layout (start + step title) id ps := by
  induction ps generalizing id with
  | nil => rfl
  | cons p ps ih =>
    rw [List.map_cons,layout_cons,layout_cons,lines_below i title (inner p List.mem_cons_self),
      ih fun q within => inner q (List.mem_cons_of_mem _ within)]

end Place

namespace Node

open Place

theorem layout_preorder (n : Node) (start id : Nat) : layout start id n.preorder =
    n.headline start id :: layout start (id + 1) (preorderIn n.type 0 n.slots) := by
  rw [preorder,layout_cons]
  rfl

-- What stands between a node and the header of the node above it, or the node in the slot before.
def opening (indent : Nat) : Option String → String
  | none => "\n"
  | some s => title indent s

-- A node in a slot, with what stands in front of it.
theorem opening_layout (c : Node) (start id i : Nat) (name : Option String) :
    opening start name ++ "\n".intercalate (layout (start + step name) id c.preorder) =
      behind (layout start id (c.preorder.map (·.below i name))) := by
  have inner (p : Place) (below : p ∈ preorderIn c.type 0 c.slots) : p.titles ≠ [] := by
    obtain ⟨_,_,_,_,_,rfl⟩ := mem_preorderIn.mp below
    exact List.cons_ne_nil _ _
  rw [layout_preorder,intercalate_cons,preorder,List.map_cons,layout_cons,layout_below i name inner,lines_below_root]
  cases name with
  | none =>
    rw [Option.toList_none,List.map_nil,List.nil_append,List.singleton_append,behind_cons]
    rfl
  | some s =>
    have written : opening start (some s) = "\n" ++ (blanks (start + 2) ++ s) ++ "\n" := by
      rw [← String.append_assoc]
      rfl
    rw [Option.toList_some,List.map_singleton,List.append_assoc,List.singleton_append,List.singleton_append,behind_cons,
      behind_cons,written,String.append_assoc,String.append_assoc]

-- The dump of slots one after the other. The first has the number `i`.
def dumpSlots (type : NodeType) (indent i id : Nat) : List (Option Node) → String × Nat
  | [] => ("",id)
  | none :: slots => dumpSlots type indent (i + 1) id slots
  | some c :: slots =>
    let (s,id) := c.dumpFrom (indent + step (type.title? i)) id
    let (rest,id) := dumpSlots type indent (i + 1) id slots
    (opening indent (type.title? i) ++ s ++ rest,id)

theorem dumpEntries_slots (ns : List Node) (indent i id : Nat) :
    dumpEntries (indent + 2) id ns = dumpSlots .list indent i id (ns.map some) := by
  induction ns generalizing i id with
  | nil => rfl
  | cons n ns ih =>
    simp only [dumpEntries,List.map_cons,dumpSlots,ih (i + 1)]
    rfl

-- Each type of node dumps its own fields, and so its slots.
theorem dumpFrom_slots (n : Node) (indent id : Nat) : n.dumpFrom indent id =
    let (s,next) := dumpSlots n.type indent 0 (id + 1) n.slots
    (n.headline indent id ++ s,next) := by
  cases n with
  | list ns =>
    simp only [dumpFrom,dumpEntries_slots ns indent 0,headline_eq,entriesText,String.append_assoc]
    rfl
  | column name source e =>
    cases e <;> simp [dumpFrom,dumpSection,headline_eq,entriesText,type,slots,dumpSlots,NodeType.title?,opening,step]
  | join spec l r e =>
    cases e <;> simp [dumpFrom,dumpSection,headline_eq,entriesText,type,slots,dumpSlots,NodeType.title?,opening,step,
      String.append_assoc]
  | _ => simp [dumpFrom,headline_eq,entriesText,type,slots,dumpSlots,NodeType.title?,opening,step,String.append_assoc]

theorem dumpSlots_layout {slots : List (Option Node)} (type : NodeType) (indent i id : Nat)
    (inner : ∀ c, some c ∈ slots → ∀ indent id,
      c.dumpFrom indent id = ("\n".intercalate (layout indent id c.preorder),id + c.preorder.length)) :
    dumpSlots type indent i id slots =
      (behind (layout indent id (preorderIn type i slots)),id + (preorderIn type i slots).length) := by
  induction slots generalizing i id with
  | nil =>
    rw [preorderIn]
    rfl
  | cons slot slots ih =>
    have ih := fun i id => ih i id fun c within => inner c (List.mem_cons_of_mem _ within)
    cases slot with
    | none => rw [preorderIn,dumpSlots,ih]
    | some c =>
      rw [preorderIn,dumpSlots,inner c List.mem_cons_self,layout_append,behind_append,← opening_layout,List.length_append,
        List.length_map,← Nat.add_assoc]
      simp only [ih]

theorem dumpFrom_layout (n : Node) (indent id : Nat) :
    n.dumpFrom indent id = ("\n".intercalate (layout indent id n.preorder),id + n.preorder.length) := by
  induction n using induct_slots generalizing indent id with
  | above n ih =>
    rw [dumpFrom_slots,dumpSlots_layout n.type indent 0 (id + 1) ih,layout_preorder,intercalate_cons,preorder,
      List.length_cons,Nat.add_assoc,Nat.add_comm 1]

-- A dump goes behind what is there already. Every node stands in it once, at the place to which its slots lead; a node comes
-- before the nodes below it, and of two slots the nodes below the first come before those below the second. The number of a
-- node is that of the nodes before it.
theorem dumpOnto_layout (n : Node) (start : Nat) (out : String) :
    n.dumpOnto out start = out ++ "\n".intercalate (n.preorder.zipIdx.flatMap fun (p,id) => p.lines start id) ∧
    (∀ path p, n.place? path = some p ↔ p ∈ n.preorder ∧ p.path = path) ∧
    n.preorder.Pairwise (·.path < ·.path) ∧ n.preorder.length = n.size := by
  refine ⟨?_,mem_preorder n,preorder_sorted n,length_preorder n⟩
  rw [dumpOnto,dumpFrom_layout]
  rfl

example : (column "v" .using (some (.list [.ident "x",.table "t" none]))).dumpOnto "; " 1 =
    ";  COLUMN id: 0, column_name: v, column_source: USING\n   EXPRESSION\n     LIST id: 1, nodes: 2\n" ++
      "       IDENTIFIER id: 2, identifier: x\n       TABLE id: 3, table_name: t" := by
  decide +kernel

end Node

end JoinTree
