import JoinTree.FilterSteps
import JoinTree.Proofs.Outcome

/-!
Conjuncts that guard those behind them. Main statement: under settings that a snapshot accepts, the steps of a merged
filter evaluate the same conjuncts, in the same order and with the same outcome, as evaluation from left to right that
stops at the first conjunct that does not hold.
-/

namespace JoinTree

inductive Verdict where
  | holds | fails | error
  deriving DecidableEq, Repr

-- An error stays one, whatever stands beside it.
def Verdict.and : Verdict → Verdict → Verdict
  | error,_ | _,error => error
  | fails,_ | _,fails => fails
  | holds,holds => holds

-- What comes out for one row, and all that was evaluated for it up to then, in order.
structure Evaluation where
  verdict : Verdict
  seen : List Node

namespace Evaluation

-- The first conjunct guards the second one.
def guarding (e : Evaluation) (next : List Node → Evaluation) : Evaluation :=
  match e.verdict with
  | .holds => next e.seen
  | _ => e

-- Both conjuncts are evaluated at once.
def merging (e : Evaluation) (next : List Node → Evaluation) : Evaluation :=
  ⟨e.verdict.and (next e.seen).verdict,(next e.seen).seen⟩

theorem guarding_assoc (e : Evaluation) (f g : List Node → Evaluation) :
    (e.guarding f).guarding g = e.guarding fun seen => (f seen).guarding g := by
  rcases e with ⟨_ | _ | _,seen⟩ <;> rfl

theorem guarding_nothing (e : Evaluation) : (e.guarding fun seen => ⟨.holds,seen⟩) = e := by
  rcases e with ⟨_ | _ | _,seen⟩ <;> rfl

end Evaluation

-- What a node comes to that is no chain. It may depend on what was evaluated before, so that equal nodes in different
-- places can come to different things.
abbrev Answers := List Node → Node → Verdict

namespace Answers

def single (f : Answers) (seen : List Node) (n : Node) : Evaluation := ⟨f seen n,seen ++ [n]⟩

-- A predicate whose chains are evaluated from left to right, each conjunct joined to those behind it.
section
variable (join : Evaluation → (List Node → Evaluation) → Evaluation)
mutual
def evaluate (f : Answers) (seen : List Node) : Node → Evaluation
  | .function name args => if name = "and" then evaluateArguments f seen args else f.single seen (.function name args)
  | n => f.single seen n
def evaluateArguments (f : Answers) (seen : List Node) : Node → Evaluation
  | .list ns => evaluateAll f seen ns
  | _ => ⟨.holds,seen⟩
def evaluateAll (f : Answers) (seen : List Node) : List Node → Evaluation
  | [] => ⟨.holds,seen⟩
  | n :: ns => join (evaluate f seen n) fun seen => evaluateAll f seen ns
end
end

-- Each step of a filter evaluates its chain at once, and keeps the row for the next step if the chain holds.
def filter (f : Answers) (seen : List Node) : List Node → Evaluation
  | [] => ⟨.holds,seen⟩
  | n :: ns => (f.evaluate .merging seen n).guarding fun seen => filter f seen ns

theorem evaluate_chain (f : Answers) (seen : List Node) (chain : n.conjunctsOf? = some cs) :
    f.evaluate join seen n = f.evaluateAll join seen cs := by
  cases n with
  | function name args =>
    simp only [Node.conjunctsOf?] at chain
    split at chain
    · rename_i conjunction
      cases chain
      rw [evaluate,if_pos conjunction]
      cases args <;> rfl
    · cases chain
  | _ => cases chain

theorem evaluate_single (f : Answers) (seen : List Node) (other : n.conjunctsOf? = none) :
    f.evaluate join seen n = f.single seen n := by
  cases n with
  | function name args =>
    simp only [Node.conjunctsOf?] at other
    split at other
    · cases other
    · rename_i otherName
      rw [evaluate,if_neg otherName]
  | _ => rfl

theorem evaluateAll_append (f : Answers) (seen : List Node) (ns ms : List Node) :
    f.evaluateAll .guarding seen (ns ++ ms) = (f.evaluateAll .guarding seen ns).guarding fun seen => f.evaluateAll .guarding seen ms := by
  induction ns generalizing seen with
  | nil => rfl
  | cons n ns ih => simp only [List.cons_append,evaluateAll,ih,Evaluation.guarding_assoc]

-- What the loop keeps: the conjuncts found so far and the predicates still on the stack stand for the same evaluation.
theorem filter_conjuncts (f : Answers) (seen : List Node) (ns : List Node) :
    f.filter seen (Node.conjunctsFrom ns) = f.evaluateAll .guarding seen ns := by
  fun_induction Node.conjunctsFrom ns generalizing seen with
  | case1 => rfl
  | case2 n ns cs chain ih => rw [ih,evaluateAll_append,evaluateAll,evaluate_chain f seen chain]
  | case3 n ns other ih =>
    rw [filter,evaluateAll,evaluate_single f seen other,evaluate_single f seen other]
    simp only [ih]

end Answers

-- `SET` requests one after the other. A refused one changes nothing.
def Settings.assignAll (s : Settings) (requests : List (String × String)) : Settings :=
  requests.foldl (fun s r => match s.assign r.1 r.2 with | .ok changed => changed | .error _ => s) s

-- Settings that go together split the chains of merged filters, unless no conjunct guards another one anyway.
theorem Settings.splitsChains_valid {s : Settings} (valid : s.validate = .ok ()) (merging : s.mergeFilters = true)
    (lazily : s.shortCircuit ≠ .disable) : s.splitsChains = true := by
  have absent : s.conflict? = none := by
    unfold validate at valid
    cases conflict : s.conflict? with
    | none => rfl
    | some c =>
      rw [conflict] at valid
      cases valid
  have unguarded : s.guardConflict? = none := by
    unfold conflict? at absent
    split at absent
    · cases absent
    · exact absent
  have split : s.splitFilterChain ≠ some false := by
    intro unsplit
    simp [guardConflict?,merging,lazily,unsplit] at unguarded
  rw [splitsChains,merging]
  match chosen : s.splitFilterChain with
  | none => rfl
  | some true => rfl
  | some false => exact absurd chosen split

-- All that a snapshot is, and when there is one.
theorem Snapshot.ofContext_iff {c : Context} : (ofContext c).result = .ok snapshot ↔
    c.settings.validate = .ok () ∧ snapshot = ⟨.ofSettings c.settings true,c.query,c.callback,c.settings.splitsChains⟩ := by
  simp only [ofContext,Noted.result_bind,Noted.result_lift,Noted.result_notes,Noted.result_note,Noted.result_pure]
  constructor
  · intro accepted
    obtain ⟨⟨⟩,valid,taken⟩ := bind_ok.mp accepted
    cases taken
    exact ⟨valid,rfl⟩
  · rintro ⟨valid,rfl⟩
    rw [valid]
    rfl

theorem Snapshot.ofContext_ok {c : Context} (accepted : (ofContext c).result = .ok snapshot) :
    c.settings.validate = .ok () ∧ snapshot.splitsChains = c.settings.splitsChains := by
  obtain ⟨valid,rfl⟩ := ofContext_iff.mp accepted
  exact ⟨valid,rfl⟩

-- No conjunct of a merged filter is evaluated unguarded, whatever requests changed the settings before the snapshot.
theorem filterSteps_guarded (s : Settings) (requests : List (String × String)) (query callback : Option String)
    (snapshot : Snapshot) (accepted : (Snapshot.ofContext ⟨s.assignAll requests,query,callback⟩).result = .ok snapshot)
    (merging : (s.assignAll requests).mergeFilters = true) (lazily : (s.assignAll requests).shortCircuit ≠ .disable)
    (predicate : Node) (f : Answers) (seen : List Node) :
    f.filter seen (filterSteps predicate snapshot) = f.evaluate .guarding seen predicate := by
  obtain ⟨valid,same⟩ := Snapshot.ofContext_ok accepted
  have splits : snapshot.splitsChains = true := same.trans (Settings.splitsChains_valid valid merging lazily)
  rw [filterSteps,if_pos splits,Answers.filter_conjuncts]
  exact Evaluation.guarding_nothing (f.evaluate .guarding seen predicate)

-- `x <> 0 AND (1 / x > 0 AND b)` where `x` is 0. One request of three is refused. Without the last one the settings have
-- no snapshot, and a filter of one step would divide by 0.
theorem filterSteps_guarded_division :
    let requests := [("query_plan_split_filter_and_chain","0"),("short_circuit_function_evaluation","sometimes"),
      ("query_plan_split_filter_and_chain"," TRUE")]
    let guard := Node.call "notEquals" [.ident "x",.constant (.int 0)]
    let quotient := Node.call "greater" [.call "intDiv" [.constant (.int 1),.ident "x"],.constant (.int 0)]
    let predicate := Node.call "and" [guard,.call "and" [quotient,.ident "b"]]
    let f : Answers := fun _ n =>
      match n with
      | .function name _ => if name = "notEquals" then .fails else .error
      | _ => .holds
    let s : Settings := ({} : Settings).assignAll requests
    let before : Settings := ({} : Settings).assignAll requests.dropLast
    (Snapshot.ofContext ⟨before,none,none⟩).result = .error (.conflict .unguarded) ∧
      f.filter [] [predicate] = ⟨.error,[guard,quotient,.ident "b"]⟩ ∧
      ∃ snapshot, (Snapshot.ofContext ⟨s,none,none⟩).result = .ok snapshot ∧ s.mergeFilters = true ∧
        s.shortCircuit ≠ .disable ∧ f.filter [] (filterSteps predicate snapshot) = ⟨.fails,[guard]⟩ := by
  intro requests guard quotient predicate f s before
  have accepted : (Snapshot.ofContext ⟨s,none,none⟩).result = .ok _ := rfl
  have merging : s.mergeFilters = true := rfl
  have lazily : s.shortCircuit ≠ .disable := by decide
  refine ⟨rfl,rfl,_,accepted,merging,lazily,?_⟩
  rw [filterSteps_guarded {} requests none none _ accepted merging lazily predicate f []]
  rfl

end JoinTree
