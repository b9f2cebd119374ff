import JoinTree.FilterSteps

/-!
The steps of a filter as the conjuncts of its predicate. Main statement: they are the chain read from left to right, however
its conjuncts are grouped.
-/

namespace JoinTree

namespace Node

-- The conjuncts of a predicate, those of a chain being the conjuncts of its arguments.
mutual
def conjuncts : Node → List Node
  | function name args => if name = "and" then argumentConjuncts args else [function name args]
  | n => [n]
def argumentConjuncts : Node → List Node
  | list ns => allConjuncts ns
  | _ => []
def allConjuncts : List Node → List Node
  | [] => []
  | n :: ns => n.conjuncts ++ allConjuncts ns
end

theorem conjuncts_chain (chain : conjunctsOf? n = some cs) : n.conjuncts = allConjuncts cs := by
  cases n with
  | function name args =>
    simp only [conjunctsOf?] at chain
    split at chain
    · rename_i conjunction
      cases chain
      rw [conjuncts,if_pos conjunction]
      cases args <;> rfl
    · cases chain
  | _ => cases chain

theorem conjuncts_single (other : conjunctsOf? n = none) : n.conjuncts = [n] := by
  cases n with
  | function name args =>
    simp only [conjunctsOf?] at other
    split at other
    · cases other
    · rename_i otherName
      rw [conjuncts,if_neg otherName]
  | _ => rfl

theorem allConjuncts_flatMap (ns : List Node) : allConjuncts ns = ns.flatMap conjuncts := by
  induction ns with
  | nil => rfl
  | cons n ns ih => rw [allConjuncts,ih,List.flatMap_cons]

-- What the loop keeps: the conjuncts found so far come before those of the predicates still on the stack.
theorem conjunctsFrom_flatMap (ns : List Node) : conjunctsFrom ns = ns.flatMap conjuncts := by
  fun_induction conjunctsFrom ns with
  | case1 => rfl
  | case2 n ns cs chain ih =>
    rw [ih,List.flatMap_append,List.flatMap_cons,conjuncts_chain chain,allConjuncts_flatMap]
  | case3 n ns other ih => rw [ih,List.flatMap_cons,conjuncts_single other,List.singleton_append]

theorem conjunctsFrom_single (n : Node) : conjunctsFrom [n] = n.conjuncts := by
  rw [conjunctsFrom_flatMap,List.flatMap_cons,List.flatMap_nil,List.append_nil]

-- A conjunct is no chain. The induction goes down to the arguments of a chain, which are on a list below its own child.
mutual
theorem conjunct_single (n : Node) : ∀ c ∈ n.conjuncts, c.conjunctsOf? = none := by
  cases n with
  | function name args =>
    by_cases chain : name = "and"
    · rw [conjuncts,if_pos chain]
      exact argument_single args
    · intro c inside
      rw [conjuncts,if_neg chain] at inside
      cases List.mem_singleton.mp inside
      exact if_neg chain
  | _ =>
    intro c inside
    cases List.mem_singleton.mp inside
    rfl
theorem argument_single (args : Node) : ∀ c ∈ argumentConjuncts args, c.conjunctsOf? = none := by
  cases args with
  | list ns => exact all_single ns
  | _ => nofun
theorem all_single (ns : List Node) : ∀ c ∈ allConjuncts ns, c.conjunctsOf? = none := by
  cases ns with
  | nil => nofun
  | cons n ns =>
    intro c inside
    rcases List.mem_append.mp inside with first | later
    · exact conjunct_single n c first
    · exact all_single ns c later
end

end Node

-- Predicates in a given order, grouped by conjunctions of any number of parts.
inductive Grouping where
  | single (predicate : Node)
  | chain (parts : List Grouping)

namespace Grouping

mutual
def predicate : Grouping → Node
  | single n => n
  | chain parts => .call "and" (predicates parts)
def predicates : List Grouping → List Node
  | [] => []
  | g :: gs => g.predicate :: predicates gs
end

mutual
def members : Grouping → List Node
  | single n => [n]
  | chain parts => allMembers parts
def allMembers : List Grouping → List Node
  | [] => []
  | g :: gs => g.members ++ allMembers gs
end

mutual
theorem conjuncts_members (g : Grouping) : g.predicate.conjuncts = g.members.flatMap Node.conjuncts := by
  cases g with
  | single n => rw [predicate,members,List.flatMap_cons,List.flatMap_nil,List.append_nil]
  | chain parts =>
    have chain : (Node.call "and" (predicates parts)).conjunctsOf? = some (predicates parts) := rfl
    rw [predicate,members,Node.conjuncts_chain chain]
    exact all_conjuncts_members parts
theorem all_conjuncts_members (gs : List Grouping) :
    Node.allConjuncts (predicates gs) = (allMembers gs).flatMap Node.conjuncts := by
  cases gs with
  | nil => rfl
  | cons g gs =>
    rw [predicates,Node.allConjuncts,allMembers,List.flatMap_append,conjuncts_members g,all_conjuncts_members gs]
end

end Grouping

theorem filterSteps_split (split : Snapshot.splitsChains s = true) (n : Node) : filterSteps n s = n.conjuncts := by
  rw [filterSteps,if_pos split,Node.conjunctsFrom_single]

-- With splitting, the steps are the conjuncts of the predicate in their order. None of them can be split further, and a
-- predicate that groups others in any way has their steps, one after another; so the steps of a predicate stay what they are
-- however they are grouped again. Without splitting, the predicate is the only step.
theorem filterSteps_flattened (predicate : Node) (s : Snapshot) :
    (s.splitsChains = true →
      filterSteps predicate s = predicate.conjuncts ∧
      (∀ step ∈ filterSteps predicate s, (∀ args, step ≠ .function "and" args) ∧ filterSteps step s = [step]) ∧
      ∀ g : Grouping,
        filterSteps g.predicate s = g.members.flatMap (filterSteps · s) ∧
        (g.members = filterSteps predicate s → filterSteps g.predicate s = filterSteps predicate s)) ∧
    (s.splitsChains = false → filterSteps predicate s = [predicate]) := by
  constructor
  · intro split
    have steps : (filterSteps · s) = Node.conjuncts := funext (filterSteps_split split)
    have single : ∀ step ∈ filterSteps predicate s, step.conjunctsOf? = none := by
      rw [filterSteps_split split]
      exact Node.conjunct_single predicate
    have alone (step : Node) (member : step ∈ filterSteps predicate s) : filterSteps step s = [step] := by
      rw [filterSteps_split split,Node.conjuncts_single (single step member)]
    have grouped (g : Grouping) : filterSteps g.predicate s = g.members.flatMap (filterSteps · s) := by
      rw [steps,filterSteps_split split,g.conjuncts_members]
    refine ⟨filterSteps_split split predicate,?_,?_⟩
    · intro step member
      refine ⟨?_,alone step member⟩
      rintro args rfl
      exact absurd (single _ member) nofun
    · intro g
      refine ⟨grouped g,fun regrouped => ?_⟩
      calc filterSteps g.predicate s
        _ = (filterSteps predicate s).flatMap (filterSteps · s) := by rw [grouped g,regrouped]
        _ = (filterSteps predicate s).flatMap ([·]) := by rw [List.flatMap_def,List.map_congr_left alone,← List.flatMap_def]
        _ = filterSteps predicate s := List.flatMap_singleton' _
  · intro whole
    rw [filterSteps,whole,if_neg Bool.false_ne_true]

-- A chain of chains, one of them empty, and its conjuncts grouped to the right.
theorem filterSteps_flattened_regrouped :
    let split : Snapshot := ⟨.ofSettings {} true,none,none,true⟩
    let whole : Snapshot := { split with splitsChains := false }
    let a := Node.ident "a"; let b := Node.ident "b"; let c := Node.call "or" [a,b]
    let predicate := Node.call "and" [.call "and" [a,b],.call "and" [],.call "and" [c]]
    let g : Grouping := .chain [.single a,.chain [.single b,.single c]]
    split.splitsChains = true ∧ filterSteps predicate split = [a,b,c] ∧ filterSteps a split = [a] ∧
      g.members = filterSteps predicate split ∧ filterSteps g.predicate split = [a,b,c] ∧
      whole.splitsChains = false ∧ filterSteps predicate whole = [predicate] := by
  intro split whole a b c predicate g
  obtain ⟨steps,single,grouped⟩ := (filterSteps_flattened predicate split).1 rfl
  have chain : filterSteps predicate split = [a,b,c] := steps
  have same : g.members = filterSteps predicate split := chain.symm
  exact ⟨rfl,chain,(single a (by rw [chain]; exact List.mem_cons_self)).2,same,((grouped g).2 same).trans chain,rfl,
    (filterSteps_flattened predicate whole).2 rfl⟩

end JoinTree
