import Std.Data.HashSet.Lemmas
import JoinTree.Proofs.TreeEquality

/-!
What a hasher is given for a tree. Main statement: no tree has an input that begins the input of another one, so that
equal inputs are those of equal trees, and a hash set takes a tree for new exactly if no equal tree came before.
-/

namespace JoinTree

-- Inputs that end by themselves: none of them begins another one.
def PrefixFree (input : α → List HashInput) : Prop := ∀ a b s t, input a ++ s = input b ++ t → a = b ∧ s = t

theorem PrefixFree.pair {f : α → List HashInput} {g : β → List HashInput} (first : PrefixFree f) (second : PrefixFree g) :
    PrefixFree fun p : α × β => f p.1 ++ g p.2 := by
  intro (a,b) (a',b') s t same
  simp only [List.append_assoc] at same
  obtain ⟨rfl,later⟩ := first a a' _ _ same
  obtain ⟨rfl,behind⟩ := second b b' s t later
  exact ⟨rfl,behind⟩

namespace HashInput

theorem ofString_prefixFree : PrefixFree ofString := by
  intro a b s t same
  simp only [ofString,List.cons_append,List.nil_append,List.cons.injEq,bytes.injEq,true_and] at same
  exact ⟨String.toByteArray_inj.mp (ByteArray.ext (Array.toList_inj.mp same.1)),same.2⟩

theorem ofOption_prefixFree : PrefixFree ofOption := by
  intro a b s t same
  cases a with
  | none =>
    cases b with
    | none => exact ⟨rfl,(List.cons.inj same).2⟩
    | some b => simp [ofOption] at same
  | some a =>
    cases b with
    | none => simp [ofOption] at same
    | some b =>
      obtain ⟨rfl,behind⟩ := ofString_prefixFree a b s t (List.cons.inj same).2
      exact ⟨rfl,behind⟩

-- Texts one behind the other, whose number comes first.
theorem texts_prefixFree : PrefixFree fun ps : List String => count ps.length :: ps.flatMap ofString := by
  intro ps qs s t same
  simp only [List.cons_append,List.cons.injEq,count.injEq] at same
  obtain ⟨number,same⟩ := same
  induction ps generalizing qs with
  | nil =>
    cases qs with
    | nil => exact ⟨rfl,same⟩
    | cons => cases number
  | cons p ps ih =>
    cases qs with
    | nil => cases number
    | cons q qs =>
      simp only [List.flatMap_cons,List.append_assoc] at same
      obtain ⟨rfl,later⟩ := ofString_prefixFree p q _ _ same
      obtain ⟨rfl,behind⟩ := ih qs (Nat.succ.inj number) later
      exact ⟨rfl,behind⟩

end HashInput

open HashInput

theorem Constant.hashInput_prefixFree : PrefixFree Constant.hashInput := by
  intro a b s t same
  cases a <;> cases b <;> simp [hashInput] at same
  case null.null => exact ⟨rfl,same⟩
  case bool.bool a b => cases a <;> cases b <;> simp_all [ofBool]
  case int.int => exact ⟨congrArg int same.1,same.2⟩
  case uint.uint => exact ⟨congrArg uint same.1,same.2⟩
  case float.float => exact ⟨congrArg float same.1,same.2⟩
  case string.string =>
    obtain ⟨text,behind⟩ := ofString_prefixFree _ _ s t same
    exact ⟨congrArg string text,behind⟩

theorem ColumnSource.hashInput_prefixFree : PrefixFree ColumnSource.hashInput := by
  intro a b s t same
  cases a <;> cases b <;> simp [hashInput] at same
  case table.table =>
    obtain ⟨label,behind⟩ := ofString_prefixFree _ _ s t same
    exact ⟨congrArg table label,behind⟩
  case using.using => exact ⟨rfl,same⟩

theorem JoinSpec.hashInput_prefixFree : PrefixFree JoinSpec.hashInput := by
  intro ⟨l,x,k⟩ ⟨l',x',k'⟩ s t same
  simp only [hashInput,List.cons_append,List.nil_append,List.cons.injEq,tag.injEq] at same
  obtain ⟨locality,strictness,kind,behind⟩ := same
  have locality : l = l' := by revert locality; cases l <;> cases l' <;> decide
  have strictness : x = x' := by revert strictness; cases x <;> cases x' <;> decide
  have kind : k = k' := by revert kind; cases k <;> cases k' <;> decide
  exact ⟨by rw [locality,strictness,kind],behind⟩

theorem NodeType.place_inj {a b : NodeType} (same : a.place = b.place) : a = b := by
  revert same
  cases a <;> cases b <;> decide

namespace Node

-- The scalars of nodes of one type.
theorem scalars_prefixFree {a b : Node} (type : a.type = b.type) (same : a.scalars.hashInput ++ s = b.scalars.hashInput ++ t) :
    a.scalars = b.scalars ∧ s = t := by
  cases a <;> cases b <;> cases type
  case identifier.identifier parts parts' =>
    obtain ⟨rfl,behind⟩ := texts_prefixFree parts parts' s t same
    exact ⟨rfl,behind⟩
  case constant.constant value value' =>
    obtain ⟨rfl,behind⟩ := Constant.hashInput_prefixFree value value' s t same
    exact ⟨rfl,behind⟩
  case column.column name source _ name' source' _ =>
    have parts := ofString_prefixFree.pair ColumnSource.hashInput_prefixFree (name,source) (name',source') s t same
    obtain ⟨⟨rfl,rfl⟩,behind⟩ := parts.imp_left Prod.mk.inj
    exact ⟨rfl,behind⟩
  case function.function name _ name' _ =>
    obtain ⟨rfl,behind⟩ := ofString_prefixFree name name' s t same
    exact ⟨rfl,behind⟩
  case list.list => exact ⟨rfl,same⟩
  case table.table name asName name' asName' =>
    have parts := ofString_prefixFree.pair ofOption_prefixFree (name,asName) (name',asName') s t same
    obtain ⟨⟨rfl,rfl⟩,behind⟩ := parts.imp_left Prod.mk.inj
    exact ⟨rfl,behind⟩
  case join.join spec _ _ _ spec' _ _ _ =>
    obtain ⟨rfl,behind⟩ := JoinSpec.hashInput_prefixFree spec spec' s t same
    exact ⟨rfl,behind⟩
  case runtimeFilter.runtimeFilter id _ id' _ =>
    obtain ⟨first,behind⟩ := List.cons.inj same
    cases first
    exact ⟨rfl,behind⟩

end Node

namespace HashStep

-- Two stacks with nodes in the same places, and slots in the same places.
inductive Alike : List HashStep → List HashStep → Prop where
  | nil : Alike [] []
  | node (n m : Node) : Alike xs ys → Alike (.node n :: xs) (.node m :: ys)
  | slot (l r : Option Node) : Alike xs ys → Alike (.slot l :: xs) (.slot r :: ys)

theorem alike_slots (ls rs : List (Option Node)) (number : ls.length = rs.length) (alike : Alike xs ys) :
    Alike (ls.map HashStep.slot ++ xs) (rs.map HashStep.slot ++ ys) := by
  induction ls generalizing rs with
  | nil =>
    cases rs with
    | nil => exact alike
    | cons => cases number
  | cons l ls ih =>
    cases rs with
    | nil => cases number
    | cons r rs => exact .slot l r (ih rs (Nat.succ.inj number))

theorem inputs_filled (n : Node) (steps : List HashStep) :
    inputs (slot (some n) :: steps) = ofBool true :: inputs (node n :: steps) := by
  conv_lhs => rw [inputs]

-- What the walk keeps: of two stacks that are alike, none gives an input that begins the input of the other, unless they
-- are one stack.
theorem inputs_prefixFree (xs ys : List HashStep) (s t : List HashInput) (alike : Alike xs ys)
    (same : inputs xs ++ s = inputs ys ++ t) : xs = ys ∧ s = t := by
  fun_induction inputs xs generalizing ys with
  | case1 =>
    cases alike
    exact ⟨rfl,by simpa [inputs] using same⟩
  | case2 n steps ih =>
    cases alike with
    | node _ m alike =>
      simp only [inputs,List.cons_append,List.append_assoc,List.cons.injEq,tag.injEq] at same
      obtain ⟨type,same⟩ := same
      obtain ⟨scalars,same⟩ := Node.scalars_prefixFree (NodeType.place_inj type) same
      simp only [List.cons.injEq,count.injEq] at same
      obtain ⟨number,same⟩ := same
      obtain ⟨equal,behind⟩ := ih _ (alike_slots _ _ number alike) same
      obtain ⟨slots,rest⟩ := List.append_inj equal (by simpa using number)
      have children : n.slots = m.slots := List.map_injective_iff.mpr (fun _ _ => HashStep.slot.inj) slots
      rw [Node.eq_of_parts scalars children,rest]
      exact ⟨rfl,behind⟩
  | case3 steps ih =>
    cases alike with
    | slot _ r alike =>
      cases r with
      | none =>
        simp only [inputs,List.cons_append,List.cons.injEq,true_and] at same
        obtain ⟨rfl,behind⟩ := ih _ alike same
        exact ⟨rfl,behind⟩
      | some m => simp [inputs,ofBool] at same
  | case4 n steps ih =>
    cases alike with
    | slot _ r alike =>
      cases r with
      | none => simp [inputs,ofBool] at same
      | some m =>
        rw [inputs_filled,List.cons_append,List.cons_append] at same
        obtain ⟨equal,behind⟩ := ih _ (.node n m alike) (List.cons.inj same).2
        obtain ⟨first,rest⟩ := List.cons.inj equal
        rw [HashStep.node.inj first,rest]
        exact ⟨rfl,behind⟩

end HashStep

theorem Node.hashInput_prefixFree : PrefixFree Node.hashInput := by
  intro a b s t same
  obtain ⟨equal,behind⟩ := HashStep.inputs_prefixFree _ _ s t (.node a b .nil) same
  cases equal
  exact ⟨rfl,behind⟩

-- A tree as a member of a hash set, `finish` being what the hasher of the set makes of the input that it is given.
structure Hashed (finish : List HashInput → UInt64) where
  tree : Node

namespace Hashed

variable {finish : List HashInput → UInt64}

instance : BEq (Hashed finish) := ⟨fun a b => a.tree.isEqual b.tree⟩
instance : Hashable (Hashed finish) := ⟨fun a => finish a.tree.hashInput⟩

theorem beq_isEqual (a b : Hashed finish) : (a == b) = a.tree.isEqual b.tree := rfl

instance : LawfulBEq (Hashed finish) where
  eq_of_beq {a b} same := congrArg mk ((Node.isEqual_iff a.tree b.tree).mp same)
  rfl {a} := (Node.isEqual_iff a.tree a.tree).mpr rfl

-- Whether each tree was new to the set when it was put in behind those before it.
def insertions (set : Std.HashSet (Hashed finish)) : List Node → List Bool
  | [] => []
  | n :: ns =>
    let (known,set) := set.containsThenInsert ⟨n⟩
    (!known) :: insertions set ns

-- A tree is new unless the set has it or it stands among the trees before.
theorem insertions_known (set : Std.HashSet (Hashed finish)) (ns : List Node) :
    insertions set ns = ns.mapIdx fun i n => !(set.contains ⟨n⟩ || (ns.take i).any (·.isEqual n)) := by
  induction ns generalizing set with
  | nil => rfl
  | cons n ns ih =>
    simp only [insertions,Std.HashSet.containsThenInsert_fst,Std.HashSet.containsThenInsert_snd,ih,List.mapIdx_cons,
      List.take_zero,List.any_nil,Bool.or_false,List.take_succ_cons,List.any_cons,Std.HashSet.contains_insert,beq_isEqual,
      Bool.or_assoc,Bool.or_left_comm]

end Hashed

-- The input of a hasher tells trees apart, whatever stands behind it, and a hash set with any hasher takes a tree for new
-- exactly if no tree before it was equal.
theorem Node.hashInput_exact (finish : List HashInput → UInt64) (a b : Node) (s t : List HashInput) (ns : List Node) :
    (a.hashInput = b.hashInput ↔ a.isEqual b = true) ∧ (a.hashInput ++ s = b.hashInput ++ t ↔ a = b ∧ s = t) ∧
      Hashed.insertions (∅ : Std.HashSet (Hashed finish)) ns = ns.mapIdx fun i n => !(ns.take i).any (·.isEqual n) := by
  refine ⟨?_,?_,?_⟩
  · rw [isEqual_iff]
    constructor
    · intro same
      exact (hashInput_prefixFree a b [] [] (by simpa using same)).1
    · rintro rfl
      rfl
  · constructor
    · exact hashInput_prefixFree a b s t
    · rintro ⟨rfl,rfl⟩
      rfl
  · simp [Hashed.insertions_known]

end JoinTree
