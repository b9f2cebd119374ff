import Mathlib.Data.List.Forall2
import JoinTree.Tree.Identity

/-!
Trees that are the same. Main statement: the comparison with a stack of pairs finds two trees equal exactly if they are
one tree, that is if each place of the one looks like the same place of the other.
-/

namespace JoinTree

namespace Node

-- A node is its scalars and its slots.
theorem eq_of_parts {l r : Node} (scalars : l.scalars = r.scalars) (slots : l.slots = r.slots) : l = r := by
  have same (ns ms : List Node) : ns.map some = ms.map some ↔ ns = ms := List.map_inj_right fun _ _ => Option.some.inj
  cases l <;> cases r <;> cases scalars <;> simp_all [Node.slots]

theorem children_list (ns : List Node) : (list ns).children = ns := by simp [children,slots,List.filterMap_map]

-- Slots that are filled alike have pairs of children, which are equal if the slots are.
theorem slotPairs_same (found : slotPairs ls rs = some ps) : (∀ p ∈ ps, p.1 = p.2) ↔ ls = rs := by
  fun_induction slotPairs ls rs generalizing ps with
  | case1 =>
    cases found
    simp
  | case2 ls rs ih =>
    rw [ih found]
    simp
  | case3 l ls r rs ih =>
    obtain ⟨qs,later,rfl⟩ := Option.map_eq_some_iff.mp found
    rw [List.forall_mem_cons,ih later]
    simp
  | case4 => cases found

theorem slotPairs_self (ls : List (Option Node)) : slotPairs ls ls ≠ none := by
  induction ls with
  | nil => simp [slotPairs]
  | cons l ls ih => cases l <;> simp [slotPairs,ih]

-- What the loop keeps: the answer is whether all pairs on the stack are equal.
theorem equalPairs_iff (ps : List (Node × Node)) : equalPairs ps = true ↔ ∀ p ∈ ps, p.1 = p.2 := by
  fun_induction equalPairs ps with
  | case1 => simp
  | case2 l r rest same qs found ih =>
    have children := slotPairs_same found
    have whole : l.slots = r.slots ↔ l = r := ⟨eq_of_parts same.2,congrArg slots⟩
    simp only [ih,List.mem_append,List.mem_reverse,or_imp,forall_and,children,whole,List.mem_cons,forall_eq]
  | case3 l r rest same absent =>
    have differ : l ≠ r := by
      rintro rfl
      exact slotPairs_self _ absent
    simp [differ]
  | case4 l r rest differ =>
    have differ : l ≠ r := fun same => differ ⟨congrArg type same,congrArg scalars same⟩
    simp [differ]

-- A tree need not be compared with itself.
theorem equalPairs_self (n : Node) (rest : List (Node × Node)) : equalPairs ((n,n) :: rest) = equalPairs rest := by
  rw [Bool.eq_iff_iff,equalPairs_iff,equalPairs_iff]
  simp

theorem isEqual_iff (l r : Node) : l.isEqual r = true ↔ l = r := by simp [isEqual,equalPairs_iff]

theorem slotsEqual_iff (ls rs : List (Option Node)) : slotsEqual ls rs = true ↔ ls.Forall₂ (Option.Rel Eq) rs := by
  induction ls generalizing rs with
  | nil => cases rs <;> simp [slotsEqual]
  | cons l ls ih =>
    cases rs with
    | nil => simp [slotsEqual]
    | cons r rs =>
      have later := ih rs
      simp only [slotsEqual,Bool.and_eq_true,decide_eq_true_eq,List.length_cons,Nat.add_right_cancel_iff,List.zip_cons_cons,
        List.all_cons,List.forall₂_cons] at later ⊢
      rw [← later]
      cases l <;> cases r <;> simp [isEqual_iff,and_left_comm]

theorem slotsEqual_eq (ls rs : List (Option Node)) : slotsEqual ls rs = true ↔ ls = rs := by
  rw [slotsEqual_iff]
  constructor
  · intro same
    induction same with
    | nil => rfl
    | cons first _ ih => cases first <;> simp_all
  · rintro rfl
    induction ls with
    | nil => exact .nil
    | cons l ls ih => exact .cons (by cases l <;> constructor; rfl) ih

-- What a node shows without its children: type, scalars, and which slots are filled.
abbrev Look := NodeType × Scalars × List Bool

def look (n : Node) : Look := (n.type,n.scalars,n.slots.map Option.isSome)

-- The look of a place in a tree, the place being given by the slots that lead to it.
def lookAt? (n : Node) : List Nat → Option Look
  | [] => some n.look
  | i :: path =>
    match n.slots[i]? with
    | some (some child) => child.lookAt? path
    | _ => none

theorem size_slot {n m : Node} (inside : some m ∈ n.slots) : m.size < n.size := by
  have part (slots : List (Option Node)) (inside : some m ∈ slots) : m.size ≤ slotsSize slots := by
    induction slots with
    | nil => cases inside
    | cons s slots ih =>
      rw [slotsSize]
      rcases List.mem_cons.mp inside with rfl | later
      · exact Nat.le_add_right _ _
      · have := ih later
        omega
  have := part n.slots inside
  rw [size_eq n]
  omega

-- What holds of a node as soon as it holds of the nodes in its slots holds of every node.
theorem induct_slots {P : Node → Prop} (above : ∀ n, (∀ c, some c ∈ n.slots → P c) → P n) (n : Node) : P n :=
  above n fun c _ => induct_slots above c
termination_by n.size
decreasing_by exact size_slot ‹_›

-- The looks of all places make the tree.
theorem eq_of_looks (a b : Node) (alike : ∀ path, a.lookAt? path = b.lookAt? path) : a = b := by
  induction a using induct_slots generalizing b with | above a ih =>
  have root : a.look = b.look := Option.some.inj (alike [])
  simp only [look,Prod.mk.injEq] at root
  obtain ⟨_,scalars,filled⟩ := root
  refine eq_of_parts scalars (List.ext_getElem? fun i => ?_)
  have present : a.slots[i]?.map Option.isSome = b.slots[i]?.map Option.isSome := by
    rw [← List.getElem?_map,← List.getElem?_map,filled]
  cases left : a.slots[i]? with
  | none =>
    rw [left,Option.map_none,eq_comm,Option.map_eq_none_iff] at present
    exact present.symm
  | some l =>
    obtain ⟨r,right,kind⟩ := Option.map_eq_some_iff.mp (present.symm.trans (congrArg _ left))
    rw [right]
    cases l with
    | none => rw [Option.isNone_iff_eq_none.mp (Option.isSome_eq_false_iff.mp kind)]
    | some l =>
      obtain ⟨r,rfl⟩ := Option.isSome_iff_exists.mp kind
      have below (path : List Nat) : l.lookAt? path = r.lookAt? path := by
        simpa [lookAt?,left,right] using alike (i :: path)
      rw [ih l (List.mem_of_getElem? left) r below]

-- Equal trees are one tree, and look alike everywhere; the comparison of their slots is that of the trees but for the root.
theorem isEqual_exact (a b : Node) (ls rs : List (Option Node)) :
    (a.isEqual b = true ↔ a = b) ∧ (a.isEqual b = true ↔ ∀ path, a.lookAt? path = b.lookAt? path) ∧
      (slotsEqual ls rs = true ↔ ls.Forall₂ (Option.Rel Eq) rs) ∧
      (a.isEqual b = true ↔ a.type = b.type ∧ a.scalars = b.scalars ∧ slotsEqual a.slots b.slots = true) := by
  refine ⟨isEqual_iff a b,?_,slotsEqual_iff ls rs,?_⟩
  · rw [isEqual_iff]
    exact ⟨fun same path => same ▸ rfl,eq_of_looks a b⟩
  · rw [isEqual_iff,slotsEqual_eq]
    exact ⟨fun same => same ▸ ⟨rfl,rfl,rfl⟩,fun ⟨_,scalars,slots⟩ => eq_of_parts scalars slots⟩

end Node

end JoinTree
