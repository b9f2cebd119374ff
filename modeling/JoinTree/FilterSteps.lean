import JoinTree.Execution
import JoinTree.Tree.Identity

/-!
The filter steps of a predicate. A conjunct can guard those behind it, so a chain of conjuncts becomes one step for
each, in the order of the text.
-/

namespace JoinTree

namespace Node

-- The arguments of an `and` call.
def conjunctsOf? : Node → Option (List Node)
  | function name args => if name = "and" then some args.argumentsOf else none
  | _ => none

theorem sizeList_argumentsOf (n : Node) : sizeList n.argumentsOf ≤ n.size := by
  cases n with
  | list nodes => exact Nat.le_add_left ..
  | _ => exact Nat.zero_le _

theorem sizeList_conjunctsOf (h : conjunctsOf? n = some ns) : sizeList ns < n.size := by
  cases n with
  | function name args =>
    simp only [conjunctsOf?] at h
    split at h <;> cases h
    have := sizeList_argumentsOf args
    simp only [size]
    omega
  | _ => cases h

-- The conjuncts of the predicates on a list, each chain in the place of its call.
def conjunctsFrom : List Node → List Node
  | [] => []
  | n :: ns =>
    match _h : conjunctsOf? n with
    | some cs => conjunctsFrom (cs ++ ns)
    | none => n :: conjunctsFrom ns
termination_by ns => sizeList ns
decreasing_by
  · have := sizeList_conjunctsOf _h
    simp only [sizeList, sizeList_append]
    omega
  · have := size_pos n
    simp only [sizeList]
    omega

end Node

-- The steps that a predicate is filtered by, one after the other.
def filterSteps (predicate : Node) (s : Snapshot) : List Node :=
  if s.splitsChains then Node.conjunctsFrom [predicate] else [predicate]

def filterNotes (predicate : Node) (s : Snapshot) : List Note :=
  if s.splitsChains then [⟨.debug,s!"Split AND-chain into {(filterSteps predicate s).length} filter steps"⟩] else []

end JoinTree
