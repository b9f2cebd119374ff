import JoinTree.Tree.Node

/-!
When two trees are the same, and what a hash of a tree is taken of. Equal trees give a hasher the same input.
-/

namespace JoinTree

-- One value given to a hasher. `tag` is the place of a constructor in its type.
inductive HashInput where
  | tag (place : Nat)
  | count (n : Nat)
  | bytes (value : List UInt8)
  | byte (value : UInt8)
  | int (value : Int64)
  | word (value : UInt64)
  deriving DecidableEq, Repr

namespace HashInput

-- No text holds the byte 255, which ends it.
def ofString (s : String) : List HashInput := [bytes s.toUTF8.data.toList, byte 255]

def ofBool (b : Bool) : HashInput := byte (if b then 1 else 0)

def ofOption : Option String → List HashInput
  | none => [tag 0]
  | some s => tag 1 :: ofString s

end HashInput

open HashInput

def Constant.hashInput : Constant → List HashInput
  | null => [tag 0]
  | bool b => [tag 1, ofBool b]
  | int n => [tag 2, .int n]
  | uint n => [tag 3, word n]
  | float bits => [tag 4, word bits]
  | string s => tag 5 :: ofString s

def ColumnSource.hashInput : ColumnSource → List HashInput
  | table label => tag 0 :: ofString label
  | .using => [tag 1]

def Locality.place : Locality → Nat
  | unspecified => 0 | global => 1 | perShard => 2

def Strictness.place : Strictness → Nat
  | unspecified => 0 | all => 1 | any => 2 | asof => 3 | semi => 4 | anti => 5

def JoinKind.place : JoinKind → Nat
  | inner => 0 | left => 1 | right => 2 | full => 3 | cross => 4 | comma => 5 | paste => 6

def JoinSpec.hashInput (s : JoinSpec) : List HashInput := [tag s.locality.place, tag s.strictness.place, tag s.kind.place]

def NodeType.place : NodeType → Nat
  | identifier => 0 | constant => 1 | column => 2 | function => 3 | list => 4 | table => 5 | join => 6
  | runtimeFilter => 7

def Scalars.hashInput : Scalars → List HashInput
  | identifier parts => count parts.length :: parts.flatMap ofString
  | constant value => value.hashInput
  | column name source => ofString name ++ source.hashInput
  | function name => ofString name
  | list => []
  | table name asName => ofString name ++ ofOption asName
  | join spec => spec.hashInput
  | runtimeFilter id => [word id]

namespace Node

-- The pairs of children in the same slots, if both sides have the same slots filled.
def slotPairs : List (Option Node) → List (Option Node) → Option (List (Node × Node))
  | [], [] => some []
  | none :: ls, none :: rs => slotPairs ls rs
  | some l :: ls, some r :: rs => (slotPairs ls rs).map ((l,r) :: ·)
  | _, _ => none

def slotsSize : List (Option Node) → Nat
  | [] => 0
  | slot :: slots => sizeOption slot + slotsSize slots

theorem size_pos (n : Node) : 0 < n.size := by cases n <;> (simp only [size]; omega)

theorem sizeList_eq (ns : List Node) : sizeList ns = slotsSize (ns.map some) := by
  induction ns with
  | nil => rfl
  | cons n ns ih => rw [sizeList, ih, List.map_cons, slotsSize, sizeOption]

theorem sizeList_append (ns ms : List Node) : sizeList (ns ++ ms) = sizeList ns + sizeList ms := by
  induction ns with
  | nil => exact (Nat.zero_add _).symm
  | cons n ns ih => rw [List.cons_append, sizeList, sizeList, ih, Nat.add_assoc]

-- A node counts one more than its children.
theorem size_eq (n : Node) : n.size = 1 + slotsSize n.slots := by
  cases n with
  | list ns => rw [size, slots, sizeList_eq]
  | _ => simp only [size, slots, slotsSize, sizeOption] <;> omega

def pairsSize : List (Node × Node) → Nat
  | [] => 0
  | p :: ps => p.1.size + pairsSize ps

theorem pairsSize_append (ps qs : List (Node × Node)) : pairsSize (ps ++ qs) = pairsSize ps + pairsSize qs := by
  induction ps with
  | nil => exact (Nat.zero_add _).symm
  | cons p ps ih => rw [List.cons_append, pairsSize, pairsSize, ih, Nat.add_assoc]

theorem pairsSize_slotPairs (h : slotPairs ls rs = some ps) : pairsSize ps = slotsSize ls := by
  fun_induction slotPairs ls rs generalizing ps with
  | case1 => cases h; rfl
  | case2 ls rs ih => rw [slotsSize, sizeOption, ih h, Nat.zero_add]
  | case3 l ls r rs ih =>
    obtain ⟨qs,hq,rfl⟩ := Option.map_eq_some_iff.mp h
    rw [pairsSize, slotsSize, sizeOption, ih hq]
  | case4 => cases h

theorem pairsSize_reverse (ps : List (Node × Node)) : pairsSize ps.reverse = pairsSize ps := by
  induction ps with
  | nil => rfl
  | cons p ps ih =>
    rw [List.reverse_cons, pairsSize_append, ih, pairsSize, pairsSize, pairsSize]
    omega

-- Whether each pair on the stack consists of equal trees. Of the children of a pair the last ones lie on top.
def equalPairs : List (Node × Node) → Bool
  | [] => true
  | (l,r) :: rest =>
    if l.type = r.type ∧ l.scalars = r.scalars then
      match _h : slotPairs l.slots r.slots with
      | some ps => equalPairs (ps.reverse ++ rest)
      | none => false
    else false
termination_by ps => pairsSize ps
decreasing_by
  have := pairsSize_slotPairs _h
  have := size_eq l
  simp only [pairsSize, pairsSize_append, pairsSize_reverse]
  omega

-- The same types, scalars and filled slots everywhere.
def isEqual (l r : Node) : Bool := equalPairs [(l,r)]

-- Whether two sequences of slots have equal trees in the same places.
def slotsEqual (ls rs : List (Option Node)) : Bool :=
  ls.length = rs.length && (ls.zip rs).all fun
    | (some l, some r) => isEqual l r
    | (none, none) => true
    | _ => false

end Node

-- What a walk over a tree still has to visit: nodes, and child slots of nodes visited before.
inductive HashStep where
  | node (n : Node)
  | slot (slot : Option Node)

namespace HashStep

def size : HashStep → Nat
  | node n => n.size
  | slot s => Node.sizeOption s

def stackSize : List HashStep → Nat
  | [] => 0
  | s :: steps => s.size + stackSize steps

def slotCount : List HashStep → Nat
  | [] => 0
  | node _ :: steps => slotCount steps
  | slot _ :: steps => slotCount steps + 1

theorem stackSize_slots (slots : List (Option Node)) (steps : List HashStep) :
    stackSize (slots.map slot ++ steps) = Node.slotsSize slots + stackSize steps := by
  induction slots with
  | nil => exact (Nat.zero_add _).symm
  | cons s slots ih => rw [List.map_cons, List.cons_append, stackSize, ih, size, Node.slotsSize, Nat.add_assoc]

-- A node gives its type, its scalars and the number of its slots, and puts the slots on the stack, the first one on
-- top. A slot gives a mark for its presence, and puts the node in it on the stack.
def inputs : List HashStep → List HashInput
  | [] => []
  | node n :: steps =>
    tag n.type.place :: (n.scalars.hashInput ++ count n.slots.length :: inputs (n.slots.map slot ++ steps))
  | slot none :: steps => ofBool false :: inputs steps
  | slot (some n) :: steps => ofBool true :: inputs (node n :: steps)
termination_by steps => (stackSize steps, slotCount steps)
decreasing_by
  · rw [stackSize_slots, stackSize, size, Node.size_eq]
    exact .left _ _ (by omega)
  · rw [stackSize, size, Node.sizeOption, Nat.zero_add]
    exact .right _ (Nat.lt_succ_self _)
  · exact .right _ (Nat.lt_succ_self _)

end HashStep

-- What a hash of a tree is taken of.
def Node.hashInput (n : Node) : List HashInput := HashStep.inputs [.node n]

-- The text of a tree's hash: sixteen hexadecimal digits.
def hashText (value : UInt64) : String :=
  let digits := Nat.toDigits 16 value.toNat
  .ofList (List.replicate (16 - digits.length) '0' ++ digits)

end JoinTree
