import JoinTree.Proofs.Rebuilding
import JoinTree.Proofs.Resolving

/-!
Which trees can be shown as SQL. Main statement: a built tree, and whatever a resolution leaves of it, is shown exactly
if no float in its ON conditions is infinite or no number, and is refused as unsupported otherwise.
-/

namespace JoinTree

open Sql

-- An outcome that is there unless something stands in its way, which is then reported as unsupported.
structure UnlessUnsupported (x : Except AnalysisError α) (obstacle : Prop) : Prop where
  given : (∃ a, x = .ok a) ↔ ¬ obstacle
  fault : ∀ e, x = .error e → ∃ construct, e = .unsupported construct

namespace UnlessUnsupported

theorem ok (a : α) : UnlessUnsupported (.ok a) False := ⟨⟨fun _ => id,fun _ => ⟨a,rfl⟩⟩,fun _ failed => by cases failed⟩

theorem unsupported (construct : Construct) (obstacle : p) : UnlessUnsupported (.error (.unsupported construct) : Except _ α) p :=
  ⟨⟨fun ⟨_,given⟩ => (by cases given),fun free => absurd obstacle free⟩,fun _ failed => by cases failed; exact ⟨_,rfl⟩⟩

theorem congr (decided : UnlessUnsupported x p) (same : p ↔ q) : UnlessUnsupported x q :=
  ⟨decided.given.trans (not_congr same),decided.fault⟩

-- The second part is reached if nothing stands in the way of the first.
theorem bind {x : Except AnalysisError α} {f : α → Except AnalysisError β} (first : UnlessUnsupported x p)
    (second : ∀ a, x = .ok a → UnlessUnsupported (f a) q) : UnlessUnsupported (x >>= f) (p ∨ q) := by
  cases x with
  | error e =>
    have obstacle : p := by simpa using first.given
    obtain ⟨construct,rfl⟩ := first.fault e rfl
    exact unsupported construct (.inl obstacle)
  | ok a =>
    have free : ¬ p := first.given.mp ⟨a,rfl⟩
    exact (second a rfl).congr (by simp [free])

theorem map {x : Except AnalysisError α} (f : α → β) (decided : UnlessUnsupported x p) : UnlessUnsupported (f <$> x) p := by
  cases x with
  | error e =>
    exact ⟨by simpa [Functor.map,Except.map] using decided.given,fun _ failed => by cases failed; exact decided.fault e rfl⟩
  | ok a => exact ⟨by simpa [Functor.map,Except.map] using decided.given,fun _ failed => by cases failed⟩

end UnlessUnsupported

namespace Node

-- The ON conditions of a tree. A list of columns is none.
def conditionOf : Option Node → List Node
  | none | some (list _) => []
  | some e => [e]

def conditions : Node → List Node
  | join _ l r e => l.conditions ++ r.conditions ++ conditionOf e
  | _ => []

-- Whether a float without a numeral stands in an ON condition.
def HasEndlessCondition (n : Node) : Prop :=
  ∃ e ∈ n.conditions, ∃ bits, constant (.float bits) ∈ e.nodes ∧ Binary64.isFinite bits = false

-- Scalars some of whose names may have given way to columns.
inductive IsBound : Node → Prop where
  | identifier (parts : List String) : IsBound (.identifier parts)
  | constant (value : Constant) : IsBound (.constant value)
  | column (name : String) (source : ColumnSource) (e : Option Node) : IsBound (.column name source e)
  | call (name : String) (args : List Node) : (∀ a ∈ args, IsBound a) → IsBound (call name args)

-- A float without a numeral, as an argument at any depth and not as a part of what a column stands for.
inductive IsEndless : Node → Prop where
  | float (bits : UInt64) : Binary64.isFinite bits = false → IsEndless (.constant (.float bits))
  | call (name : String) (a : Node) (args : List Node) : a ∈ args → IsEndless a → IsEndless (call name args)

theorem isEndless_call : (call name args).IsEndless ↔ ∃ a ∈ args, a.IsEndless :=
  ⟨fun endless => by cases endless; exact ⟨_,‹_›,‹_›⟩,fun ⟨a,member,endless⟩ => .call name a args member endless⟩

theorem isBound_of_isScalar (scalar : IsScalar n) : n.IsBound := by
  induction scalar with
  | identifier parts => exact .identifier parts
  | constant value => exact .constant value
  | call name args _ ih => exact .call name args ih

theorem isEndless_iff (scalar : IsScalar n) :
    n.IsEndless ↔ ∃ bits, constant (.float bits) ∈ n.nodes ∧ Binary64.isFinite bits = false := by
  induction scalar with
  | identifier parts =>
    have never : ¬ (identifier parts).IsEndless := by rintro ⟨⟩
    simp [never,nodes]
  | constant value =>
    constructor
    · rintro ⟨bits,endless⟩
      exact ⟨bits,by simp [nodes],endless⟩
    · rintro ⟨bits,member,endless⟩
      have same : value = .float bits := by simpa [nodes,eq_comm] using member
      exact same ▸ .float bits endless
  | call name args _ ih =>
    rw [isEndless_call]
    simp only [call,nodes,List.mem_cons,reduceCtorEq,false_or,mem_nodesList]
    constructor
    · rintro ⟨a,member,endless⟩
      obtain ⟨bits,inside,endless⟩ := (ih a member).mp endless
      exact ⟨bits,⟨a,member,inside⟩,endless⟩
    · rintro ⟨bits,⟨a,member,inside⟩,endless⟩
      exact ⟨a,member,(ih a member).mpr ⟨bits,inside,endless⟩⟩

-- Scalars are shown as expressions.

theorem scalars_shown (args : List Node) (shown : ∀ a ∈ args, UnlessUnsupported (a.surface >>= Surface.toExpr) a.IsEndless) :
    UnlessUnsupported (scalars' args) (∃ a ∈ args, a.IsEndless) := by
  induction args with
  | nil => exact (UnlessUnsupported.ok []).congr (by simp)
  | cons a args ih =>
    have rest := ih fun b member => shown b (by simp [member])
    have first := (shown a (by simp)).bind fun e _ => rest.map (e :: ·)
    have whole : scalars' (a :: args) = (a.surface >>= Surface.toExpr) >>= fun e => (e :: ·) <$> scalars' args := by
      rw [scalars',bind_assoc]
      rfl
    rw [whole]
    exact first.congr (by simp)

theorem bound_shown (bound : IsBound n) : UnlessUnsupported (n.surface >>= Surface.toExpr) n.IsEndless := by
  induction bound with
  | identifier parts => exact (UnlessUnsupported.ok _).congr ⟨False.elim,by rintro ⟨⟩⟩
  | constant value =>
    cases value
    case float bits =>
      cases finite : Binary64.isFinite bits with
      | true =>
        simp only [surface,finite,if_true]
        exact (UnlessUnsupported.ok _).congr ⟨False.elim,by rintro ⟨_,endless⟩; cases finite.symm.trans endless⟩
      | false =>
        simp only [surface,finite,Bool.false_eq_true,if_false]
        exact .unsupported _ (.float bits finite)
    all_goals exact (UnlessUnsupported.ok _).congr ⟨False.elim,by rintro ⟨⟩⟩
  | column name source e =>
    cases source <;> exact (UnlessUnsupported.ok _).congr ⟨False.elim,by rintro ⟨⟩⟩
  | call name args _ ih =>
    have shown : (call name args).surface >>= Surface.toExpr = applied name <$> scalars' args := by
      simp only [call,surface]
      cases scalars' args <;> rfl
    rw [shown]
    exact ((scalars_shown args ih).map _).congr isEndless_call.symm

-- Join trees as a resolution leaves them, wherever it ends.

def IsUsingEntry (n : Node) : Prop := (∃ name, n = ident name) ∨ ∃ name source e, n = column name source e

inductive IsConstraint : Option Node → Prop where
  | none : IsConstraint none
  | columns (ns : List Node) : (∀ n ∈ ns, IsUsingEntry n) → IsConstraint (some (.list ns))
  | condition (e : Node) : IsBound e → IsConstraint (some e)

inductive PartlyBound : Node → Prop where
  | table (name : String) (asName : Option String) : PartlyBound (.table name asName)
  | join (s : JoinSpec) (l r : Node) (e : Option Node) : PartlyBound l → PartlyBound r → IsConstraint e → PartlyBound (.join s l r e)

def EndlessConstraint (e : Option Node) : Prop := ∃ n, e = some n ∧ n.IsEndless

-- An obstacle in any condition of a tree.
inductive HasEndless : Node → Prop where
  | left : HasEndless l → HasEndless (.join s l r e)
  | right : HasEndless r → HasEndless (.join s l r e)
  | here : EndlessConstraint e → HasEndless (.join s l r e)

theorem hasEndless_join : (join s l r e).HasEndless ↔ (l.HasEndless ∨ EndlessConstraint e) ∨ r.HasEndless := by
  constructor
  · rintro (left | right | here)
    · exact .inl (.inl left)
    · exact .inr right
    · exact .inl (.inr here)
  · rintro ((left | here) | right)
    · exact .left left
    · exact .here here
    · exact .right right

theorem usingEntries_shown (ns : List Node) (entries : ∀ n ∈ ns, IsUsingEntry n) : ∃ is, ns.mapM usingName = .ok is := by
  induction ns with
  | nil => exact ⟨[],rfl⟩
  | cons n ns ih =>
    obtain ⟨is,rest⟩ := ih fun m member => entries m (by simp [member])
    obtain ⟨i,first⟩ : ∃ i, n.usingName = .ok i := by
      rcases entries n (by simp) with ⟨name,rfl⟩ | ⟨name,source,e,rfl⟩ <;> exact ⟨_,rfl⟩
    exact ⟨i :: is,by rw [List.mapM_cons,first,rest]; rfl⟩

theorem isBound_ne_list (bound : IsBound n) (ns : List Node) : n ≠ list ns := by
  rintro rfl
  cases bound

theorem clauseOf_condition (s : JoinSpec) (e : Node) (other : ∀ ns, e ≠ list ns) : clauseOf s (some e) =
    (fun condition => { locality := s.locality, strictness := s.strictness, kind := s.kind, condition := some condition }) <$>
      (e.surface >>= Surface.toExpr) := by
  cases e
  case list ns => exact absurd rfl (other ns)
  all_goals
    simp only [clauseOf,map_eq_pure_bind,bind_assoc]

theorem constraint_shown (s : JoinSpec) (given : IsConstraint e) : UnlessUnsupported (clauseOf s e) (EndlessConstraint e) := by
  cases given with
  | none => exact (UnlessUnsupported.ok _).congr (by simp [EndlessConstraint])
  | columns ns entries =>
    obtain ⟨is,shown⟩ := usingEntries_shown ns entries
    have never : ¬ (list ns).IsEndless := by rintro ⟨⟩
    simp only [clauseOf,shown]
    exact (UnlessUnsupported.ok _).congr (by simp [EndlessConstraint,never])
  | condition e bound =>
    rw [clauseOf_condition s e (isBound_ne_list bound)]
    exact ((bound_shown bound).map _).congr (by simp [EndlessConstraint])

theorem partlyBound_shown (tree : PartlyBound n) : UnlessUnsupported n.surface n.HasEndless := by
  induction tree with
  | table name asName => exact (UnlessUnsupported.ok _).congr ⟨False.elim,by rintro ⟨⟩⟩
  | join s l r e _ _ constraint ihl ihr =>
    have sides := ihl.bind fun left _ => (constraint_shown s constraint).bind fun clause _ => ihr.map (Surface.join left clause)
    have whole : (join s l r e).surface =
        l.surface >>= fun left => clauseOf s e >>= fun clause => Surface.join left clause <$> r.surface := by
      simp only [surface,map_eq_pure_bind]
    rw [whole]
    exact sides.congr (by rw [hasEndless_join,or_assoc])

-- What a visit does to scalars and to entries of a USING list.

theorem bindAllNames_value (s : Scope) (n : Node) (ns : List Node) : (bindAllNames s (n :: ns)).value =
    (if (bindAllNames s ns).fault.isSome then n else (bindNames s n).value) :: (bindAllNames s ns).value := by
  simp only [bindAllNames,Visited.map_value,Visited.andThen_value]

-- A scalar that stands for another one.
structure BoundLike (n m : Node) : Prop where
  bound : IsBound m
  endless : m.IsEndless ↔ n.IsEndless

theorem bindAllNames_bound (s : Scope) (args : List Node) (before : ∀ a ∈ args, IsBound a)
    (each : ∀ a ∈ args, BoundLike a (bindNames s a).value) :
    (∀ a ∈ (bindAllNames s args).value, IsBound a) ∧
      ((∃ a ∈ (bindAllNames s args).value, a.IsEndless) ↔ ∃ a ∈ args, a.IsEndless) := by
  induction args with
  | nil => exact ⟨nofun,Iff.rfl⟩
  | cons n ns ih =>
    obtain ⟨bound,endless⟩ := ih (fun a member => before a (by simp [member])) fun a member => each a (by simp [member])
    have first : BoundLike n (if (bindAllNames s ns).fault.isSome then n else (bindNames s n).value) := by
      split
      · exact ⟨before n (by simp),Iff.rfl⟩
      · exact each n (by simp)
    rw [bindAllNames_value]
    simp only [List.mem_cons,forall_eq_or_imp,exists_eq_or_imp,first.endless,endless]
    exact ⟨⟨first.bound,bound⟩,trivial⟩

theorem bindNames_bound (s : Scope) (bound : IsBound n) : BoundLike n (bindNames s n).value := by
  induction bound with
  | identifier parts =>
    rcases bound_identifier s parts with ⟨name,source,e,bound⟩ | bound
    · rw [bound]
      exact ⟨.column _ _ _,⟨by rintro ⟨⟩,by rintro ⟨⟩⟩⟩
    · rw [bound]
      exact ⟨.identifier parts,Iff.rfl⟩
  | constant value => exact ⟨.constant value,Iff.rfl⟩
  | column name source e => exact ⟨.column name source e,Iff.rfl⟩
  | call name args before ih =>
    obtain ⟨bound,endless⟩ := bindAllNames_bound s args before ih
    have value : (bindNames s (call name args)).value = call name (bindAllNames s args).value := rfl
    rw [value]
    exact ⟨.call name _ bound,by rw [isEndless_call,isEndless_call,endless]⟩

theorem bindUsing_entries (left right : Scope) (ns : List Node) (entries : ∀ n ∈ ns, IsUsingEntry n) :
    ∀ n ∈ (bindUsing left right ns).value, IsUsingEntry n := by
  induction ns with
  | nil => exact nofun
  | cons n ns ih =>
    have first : IsUsingEntry (bindUsingEntry left right n).value := by
      rcases bindUsingEntry_cases left right n with ⟨idle,_⟩ | ⟨parts,l,r,rfl,single,first,second⟩
      · rw [idle]
        exact entries n (by simp)
      · rw [bindUsingEntry_name single first second]
        exact .inr ⟨_,_,_,rfl⟩
    have value : (bindUsing left right (n :: ns)).value = (bindUsingEntry left right n).value ::
        if (bindUsingEntry left right n).fault.isSome then ns else (bindUsing left right ns).value := by
      simp only [bindUsing,Visited.map_value,Visited.andThen_value]
    rw [value]
    intro m member
    rcases List.mem_cons.mp member with rfl | later
    · exact first
    · split at later
      · exact entries m (by simp [later])
      · exact ih (fun k inside => entries k (by simp [inside])) m later

theorem bindConstraint_kept (left right : Scope) (given : IsConstraint e) :
    IsConstraint (bindConstraint left right e).1.value ∧
      (EndlessConstraint (bindConstraint left right e).1.value ↔ EndlessConstraint e) := by
  cases given with
  | none => exact ⟨.none,Iff.rfl⟩
  | columns ns entries =>
    have never (ns : List Node) : ¬ (list ns).IsEndless := by rintro ⟨⟩
    exact ⟨.columns _ (bindUsing_entries left right ns entries),by simp [EndlessConstraint,bindConstraint,never]⟩
  | condition e bound =>
    obtain ⟨after,endless⟩ := bindNames_bound (left.merge right) bound
    rw [bindConstraint_names left right e (isBound_ne_list bound)]
    exact ⟨.condition _ after,by simp [EndlessConstraint,endless]⟩

-- A resolution ends in one side, in the other one, or with the join expression; what it did not reach is as it was.
theorem resolve_kept (c : Catalog) (tree : PartlyBound n) :
    PartlyBound (n.resolve c).tree ∧ ((n.resolve c).tree.HasEndless ↔ n.HasEndless) := by
  induction tree with
  | table name asName => exact ⟨.table name asName,Iff.rfl⟩
  | join s l r e left right constraint ihl ihr =>
    simp only [resolve,Resolution.ofJoin]
    split
    · exact ⟨.join _ _ _ _ ihl.1 right constraint,by rw [hasEndless_join,hasEndless_join,ihl.2]⟩
    · split
      · exact ⟨.join _ _ _ _ ihl.1 ihr.1 constraint,by rw [hasEndless_join,hasEndless_join,ihl.2,ihr.2]⟩
      · rename_i leftScope _ _ rightScope _
        obtain ⟨after,endless⟩ := bindConstraint_kept leftScope rightScope constraint
        exact ⟨.join _ _ _ _ ihl.1 ihr.1 after,by rw [hasEndless_join,hasEndless_join,ihl.2,ihr.2,endless]⟩

-- Built trees.

theorem constraint_of_fits (fits : JoinSpec.Fits s e) : IsConstraint e := by
  cases kind : s.kind.isUnconditional with
  | true => exact fits.bare kind ▸ .none
  | false =>
    obtain ⟨n,rfl,⟨names,_,rfl⟩ | scalar⟩ := fits.constrained kind
    · refine .columns _ fun n member => ?_
      obtain ⟨name,_,rfl⟩ := List.mem_map.mp member
      exact .inl ⟨name,rfl⟩
    · exact .condition n (isBound_of_isScalar scalar)

theorem partlyBound_of_wellFormed (valid : WellFormed n) : PartlyBound n := by
  induction valid with
  | table name asName => exact .table name asName
  | join s l r e _ _ fits ihl ihr => exact .join s l r e ihl ihr (constraint_of_fits fits)

theorem endlessConstraint_iff (fits : JoinSpec.Fits s e) : EndlessConstraint e ↔
    ∃ p ∈ conditionOf e, ∃ bits, constant (.float bits) ∈ p.nodes ∧ Binary64.isFinite bits = false := by
  cases kind : s.kind.isUnconditional with
  | true => simp [fits.bare kind,EndlessConstraint,conditionOf]
  | false =>
    obtain ⟨n,rfl,⟨names,_,rfl⟩ | scalar⟩ := fits.constrained kind
    · have never : ¬ (list (names.map ident)).IsEndless := by rintro ⟨⟩
      simp [EndlessConstraint,conditionOf,never]
    · have condition : conditionOf (some n) = [n] := by cases scalar <;> rfl
      simp [EndlessConstraint,condition,isEndless_iff scalar]

theorem hasEndless_iff (valid : WellFormed n) : n.HasEndless ↔ n.HasEndlessCondition := by
  induction valid with
  | table name asName => exact ⟨by rintro ⟨⟩,by rintro ⟨_,⟨⟩,_⟩⟩
  | join s l r e _ _ fits ihl ihr =>
    rw [hasEndless_join,ihl,ihr,endlessConstraint_iff fits]
    simp only [HasEndlessCondition,conditions,List.mem_append,or_and_right,exists_or]
    exact or_right_comm

-- A built tree is shown unless a float in an ON condition has no numeral, and so is what a resolution leaves of it, be
-- it complete or not.
theorem surface_ofStatement (s : Statement) (hints : JoinHints) (n : Node) (built : (ofStatement s hints).result = .ok n)
    (c : Catalog) : UnlessUnsupported n.surface n.HasEndlessCondition ∧
      UnlessUnsupported (n.resolve c).tree.surface n.HasEndlessCondition := by
  have valid := (ofStatement_wellFormed s hints n built).1
  have tree := partlyBound_of_wellFormed valid
  obtain ⟨after,endless⟩ := resolve_kept c tree
  exact ⟨(partlyBound_shown tree).congr (hasEndless_iff valid),
    (partlyBound_shown after).congr (endless.trans (hasEndless_iff valid))⟩

-- `a JOIN b USING (x, y) JOIN d ON x = 1e999`, where only `x` is a column of both `a` and `b`: the resolution ends within
-- the USING list, and the infinite float stands in the way of either tree.
theorem surface_ofStatement_mixed :
    let named (s : String) : TableFactor := .table { name := .ofIdents [⟨s,none⟩], start := ⟨1,1⟩ }
    let column (s : String) : ObjectName := .ofIdents [⟨s,none⟩]
    let condition : Expr := .binary (.ident ⟨"x",none⟩) .eq (.literal (.number "1e999" false))
    let s : Statement := .query ⟨"",none,.select [⟨named "a",
      [.mk ⟨false,.join,.using [column "x",column "y"]⟩ (named "b"),.mk ⟨false,.join,.on condition⟩ (named "d")]⟩]⟩
    let c : Catalog := [("a",["x"]),("b",["x","y"]),("d",[])]
    let infinite : Node := call "equals" [ident "x",constant (.float 0x7FF0000000000000)]
    let listed (x : Node) : Node := .join {} (.join {} (.table "a" none) (.table "b" none) (some (.list [x,ident "y"])))
      (.table "d" none) (some infinite)
    let x : Node := usingColumn "x" (.column "x" (.table "a") none) (.column "x" (.table "b") none)
    (ofStatement s []).result = .ok (listed (ident "x")) ∧ ((listed (ident "x")).resolve c).tree = listed x ∧
      (listed (ident "x")).HasEndlessCondition ∧
      UnlessUnsupported (listed (ident "x")).surface (listed (ident "x")).HasEndlessCondition ∧
      UnlessUnsupported (listed x).surface (listed (ident "x")).HasEndlessCondition := by
  intro named column condition s c infinite listed x
  have built : (ofStatement s []).result = .ok (listed (ident "x")) := by
    set_option maxRecDepth 8000 in rfl
  have resolved : ((listed (ident "x")).resolve c).tree = listed x := by rfl
  obtain ⟨before,after⟩ := surface_ofStatement s [] _ built c
  rw [resolved] at after
  have endless : (listed (ident "x")).HasEndlessCondition :=
    ⟨infinite,by simp [listed,conditions,conditionOf,infinite,call],0x7FF0000000000000,
      by simp [infinite,call,nodes,nodesList],by decide⟩
  exact ⟨built,resolved,endless,before,after⟩

end Node

end JoinTree
