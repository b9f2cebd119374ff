import JoinTree.Proofs.TreeHash
import JoinTree.Tree.Edit

/-!
Trees that are changed at one place. Main statement: the subtree there is the new one, everything beside it is as it was, and
every node above it looks as before; the comparison and the hash tell the two trees apart exactly if they tell the two
subtrees apart.
-/

namespace JoinTree

-- A child of a node, and the node with another tree for it.
structure Hole where
  child : Node
  fill : Node → Node

namespace Node

-- The children that can be changed, as each type of node has them.
def holes : Node → List Hole
  | identifier _ | constant _ | table _ _ => []
  | column name source e => e.toList.map fun c => ⟨c,fun new => column name source (some new)⟩
  | function name args => [⟨args,function name⟩]
  | list nodes => nodes.mapIdx fun i c => ⟨c,fun new => list (nodes.set i new)⟩
  | join spec l r e =>
    ⟨l,fun new => join spec new r e⟩ :: ⟨r,fun new => join spec l new e⟩ ::
      e.toList.map fun c => ⟨c,fun new => join spec l r (some new)⟩
  | runtimeFilter id c => [⟨c,runtimeFilter id⟩]

theorem holes_child (n : Node) : n.holes.map Hole.child = n.children := by
  cases n with
  | list ns => rw [holes,children_list,List.mapIdx_eq_zipIdx_map,List.map_map]; exact List.zipIdx_map_fst 0 ns
  | column name source e => cases e <;> rfl
  | join spec l r e => cases e <;> rfl
  | _ => rfl

theorem withChild?_holes (n : Node) (i : Nat) (new : Node) : n.withChild? i new = n.holes[i]?.map (·.fill new) := by
  cases n with
  | list ns =>
    rw [withChild?,holes,List.getElem?_mapIdx]
    split
    · rename_i inside
      rw [List.getElem?_eq_getElem inside]
      rfl
    · rename_i outside
      rw [List.getElem?_eq_none (Nat.le_of_not_lt outside)]
      rfl
  | column name source e => rcases e with _ | e <;> rcases i with _ | i <;> rfl
  | join spec l r e => rcases e with _ | e <;> rcases i with _ | _ | _ | i <;> rfl
  | function | runtimeFilter => rcases i with _ | i <;> rfl
  | identifier | constant | table => rfl

section
variable {n t edited : Node} {h : Hole} {i : Nat}

-- A node with another child in a hole looks as before and has its other children.
theorem fill_parts (hole : n.holes[i]? = some h) (new : Node) :
    (h.fill new).look = n.look ∧ (h.fill new).children = n.children.set i new := by
  cases n with
  | list ns =>
    rw [holes,List.getElem?_mapIdx] at hole
    obtain ⟨_,_,rfl⟩ := Option.map_eq_some_iff.mp hole
    refine ⟨?_,by rw [children_list,children_list]⟩
    simp [look,type,scalars,slots,Function.comp_def,List.map_const']
  | column name source e => rcases e with _ | e <;> rcases i with _ | i <;> cases hole; exact ⟨rfl,rfl⟩
  | join spec l r e => rcases e with _ | e <;> rcases i with _ | _ | _ | i <;> cases hole <;> exact ⟨rfl,rfl⟩
  | function | runtimeFilter => rcases i with _ | i <;> cases hole; exact ⟨rfl,rfl⟩
  | identifier | constant | table => cases hole

theorem hole_child (hole : n.holes[i]? = some h) : n.children[i]? = some h.child := by
  rw [← holes_child,List.getElem?_map,hole,Option.map_some]

theorem slots_eq {ls rs : List (Option Node)} (filled : ls.map Option.isSome = rs.map Option.isSome)
    (inside : ls.filterMap id = rs.filterMap id) : ls = rs := by
  induction ls generalizing rs with
  | nil => exact (List.map_eq_nil_iff.mp filled.symm).symm
  | cons l ls ih =>
    cases rs with
    | nil => cases filled
    | cons r rs =>
      obtain ⟨first,later⟩ := List.cons.inj filled
      simp only [List.filterMap_cons] at inside
      cases l with
      | none =>
        cases r with
        | none => rw [ih later inside]
        | some r => cases first
      | some l =>
        cases r with
        | none => cases first
        | some r =>
          obtain ⟨same,others⟩ := List.cons.inj inside
          cases same
          rw [ih later others]

theorem eq_of_look {l r : Node} (looks : l.look = r.look) (inside : l.children = r.children) : l = r := by
  simp only [look,Prod.mk.injEq] at looks
  exact eq_of_parts looks.2.1 (slots_eq looks.2.2 inside)

theorem fill_eq_iff (hole : n.holes[i]? = some h) (new : Node) : h.fill new = n ↔ new = h.child := by
  obtain ⟨looks,children⟩ := fill_parts hole new
  obtain ⟨inside,here⟩ := List.getElem?_eq_some_iff.mp (hole_child hole)
  constructor
  · intro same
    have there : n.children[i]? = some new := by
      rw [← congrArg Node.children same,children,List.getElem?_set_self inside]
    exact Option.some.inj (there.symm.trans (hole_child hole))
  · rintro rfl
    exact eq_of_look looks (by rw [children,← here,List.set_getElem_self])

theorem at?_cons (n : Node) (i : Nat) (path : List Nat) : n.at? (i :: path) = n.children[i]?.bind (at? · path) := rfl

theorem at?_hole (hole : n.holes[i]? = some h) (path : List Nat) : n.at? (i :: path) = h.child.at? path := by
  rw [at?_cons,hole_child hole,Option.bind_some]

theorem at?_fill (hole : n.holes[i]? = some h) (new : Node) (path : List Nat) : (h.fill new).at? (i :: path) = new.at? path := by
  have inside : i < n.children.length := (List.getElem?_eq_some_iff.mp (hole_child hole)).1
  rw [at?_cons,(fill_parts hole new).2,List.getElem?_set_self inside,Option.bind_some]

theorem at?_fill_other (hole : n.holes[i]? = some h) (new : Node) (path : List Nat) (apart : i ≠ j) :
    (h.fill new).at? (j :: path) = n.at? (j :: path) := by
  rw [at?_cons,(fill_parts hole new).2,List.getElem?_set_ne apart,at?_cons]

-- Below the root a tree is changed by changing a child, with which its hole is filled.
theorem replaceAt?_cons (t : Node) (i : Nat) (path : List Nat) (new : Node) :
    t.replaceAt? (i :: path) new = t.holes[i]?.bind fun h => (h.child.replaceAt? path new).map h.fill := by
  simp only [replaceAt?,withChild?_holes,← holes_child,List.getElem?_map,Option.bind_eq_bind]
  cases t.holes[i]? with
  | none => rfl
  | some h =>
    rw [Option.map_some,Option.bind_some,Option.bind_some]
    cases h.child.replaceAt? path new <;> rfl

theorem replaced_cons_iff : t.replaceAt? (i :: path) new = some edited ↔
    ∃ h, t.holes[i]? = some h ∧ ∃ child, h.child.replaceAt? path new = some child ∧ h.fill child = edited := by
  simp only [replaceAt?_cons,Option.bind_eq_some_iff,Option.map_eq_some_iff]

theorem replaceAt?_isSome (t : Node) (path : List Nat) (new : Node) : (t.replaceAt? path new).isSome = (t.at? path).isSome := by
  induction path generalizing t with
  | nil => rfl
  | cons i path ih =>
    rw [replaceAt?_cons,at?_cons,← holes_child,List.getElem?_map]
    cases t.holes[i]? with
    | none => rfl
    | some h => simp only [Option.bind_some,Option.map_some,Option.isSome_map,ih]

-- What a change at a place leaves of the tree. The induction goes down the path to the place: at each node the hole on the
-- path is filled, and the places in other holes are those of the node before.

theorem at?_replaced (done : t.replaceAt? path new = some edited) (more : List Nat) :
    edited.at? (path ++ more) = new.at? more := by
  induction path generalizing t edited with
  | nil =>
    cases done
    rfl
  | cons i path ih =>
    obtain ⟨h,hole,child,below,rfl⟩ := replaced_cons_iff.mp done
    rw [List.cons_append,at?_fill hole,ih below]

theorem at?_beside (done : t.replaceAt? path new = some edited) (notBelow : ¬ path <+: q) (notAbove : ¬ q <+: path) :
    edited.at? q = t.at? q := by
  induction path generalizing t edited q with
  | nil => exact absurd List.nil_prefix notBelow
  | cons i path ih =>
    obtain ⟨h,hole,child,below,rfl⟩ := replaced_cons_iff.mp done
    cases q with
    | nil => exact absurd List.nil_prefix notAbove
    | cons j q =>
      by_cases same : i = j
      · subst same
        rw [at?_fill hole,at?_hole hole]
        exact ih below (fun inner => notBelow (List.prefix_cons_inj i |>.mpr inner))
          (fun inner => notAbove (List.prefix_cons_inj i |>.mpr inner))
      · exact at?_fill_other hole child q same

theorem look_outside (done : t.replaceAt? path new = some edited) (notBelow : ¬ path <+: q) :
    (edited.at? q).map look = (t.at? q).map look := by
  induction path generalizing t edited q with
  | nil => exact absurd List.nil_prefix notBelow
  | cons i path ih =>
    obtain ⟨h,hole,child,below,rfl⟩ := replaced_cons_iff.mp done
    cases q with
    | nil => exact congrArg some (fill_parts hole child).1
    | cons j q =>
      by_cases same : i = j
      · subst same
        rw [at?_fill hole,at?_hole hole]
        exact ih below fun inner => notBelow (List.prefix_cons_inj i |>.mpr inner)
      · rw [at?_fill_other hole child q same]

theorem replaced_eq_iff (here : t.at? path = some old) (done : t.replaceAt? path new = some edited) : edited = t ↔ new = old := by
  induction path generalizing t edited with
  | nil =>
    cases here
    cases done
    rfl
  | cons i path ih =>
    obtain ⟨h,hole,child,below,rfl⟩ := replaced_cons_iff.mp done
    rw [at?_hole hole] at here
    rw [fill_eq_iff hole,ih here below]

end

-- The holes of a node are its children that are there, in the order of its slots. A tree can be changed wherever it has a
-- subtree, and then has the new one there. Places beside it have the subtrees that they had, and no place outside of it has
-- another type, other scalars or other slots filled. Compared or hashed, the tree is the same if the subtree is.
theorem replaceAt?_exact (t new : Node) (path : List Nat) :
    t.holes.map Hole.child = t.slots.filterMap id ∧
    (∀ i child, t.withChild? i child = t.holes[i]?.map (·.fill child)) ∧
    (t.replaceAt? path new).isSome = (t.at? path).isSome ∧
    ∀ old edited, t.at? path = some old → t.replaceAt? path new = some edited →
      (∀ more, edited.at? (path ++ more) = new.at? more) ∧
      (∀ q, ¬ path <+: q → ¬ q <+: path → edited.at? q = t.at? q) ∧
      (∀ q, ¬ path <+: q → (edited.at? q).map look = (t.at? q).map look) ∧
      (edited.isEqual t = true ↔ new.isEqual old = true) ∧
      (edited.hashInput = t.hashInput ↔ new.isEqual old = true) := by
  refine ⟨holes_child t,withChild?_holes t,replaceAt?_isSome t path new,?_⟩
  intro old edited here done
  have same := replaced_eq_iff here done
  refine ⟨at?_replaced done,fun q => at?_beside done,fun q => look_outside done,?_,?_⟩
  · rw [isEqual_iff,isEqual_iff,same]
  · rw [isEqual_iff,← same]
    refine ⟨fun inputs => ?_,congrArg hashInput⟩
    exact (hashInput_prefixFree edited t [] [] (by rw [inputs])).1

-- The second conjunct of a condition. What is put for it is the second side of a join that has no condition.
theorem replaceAt?_exact_conjunct :
    let x := Node.column "x" (.table "a") none
    let t := Node.join {} (.table "a" none) (.table "b" none) (some (.call "and" [x,.ident "y"]))
    let new := Node.join { kind := .cross } x (.constant .null) none
    let edited := Node.join {} (.table "a" none) (.table "b" none) (some (.call "and" [x,new]))
    t.at? [2,0,1] = some (.ident "y") ∧ t.replaceAt? [2,0,1] new = some edited ∧
      edited.at? [2,0,1,1] = some (.constant .null) ∧ edited.at? [2,0,0] = some x ∧
      (edited.at? [2,0]).map look = (t.at? [2,0]).map look ∧ edited.isEqual t = false ∧ edited.hashInput ≠ t.hashInput := by
  intro x t new edited
  have here : t.at? [2,0,1] = some (.ident "y") := rfl
  have done : t.replaceAt? [2,0,1] new = some edited := rfl
  obtain ⟨_,_,_,changed⟩ := replaceAt?_exact t new [2,0,1]
  obtain ⟨below,beside,outside,equal,hashed⟩ := changed _ _ here done
  have differ : ¬ new.isEqual (.ident "y") = true := by
    rw [isEqual_iff]
    nofun
  exact ⟨here,done,below [1],beside [2,0,0] (by decide) (by decide),outside [2,0] (by decide),
    Bool.eq_false_iff.mpr (mt equal.mp differ),mt hashed.mp differ⟩

end Node

end JoinTree
