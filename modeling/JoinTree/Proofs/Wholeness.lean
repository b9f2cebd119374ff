import JoinTree.Proofs.TreeListing

/-!
What a tree has no place for. Main statement: nothing that is built has a call with more than a name and arguments, or a table
with more than its names, unless the part is one that the builder does not look at; any other part is refused as unsupported.
-/

namespace JoinTree

open Sql

namespace Sql

-- The parts of calls.

namespace CallHead

-- What a call has besides its name and its arguments. Without parentheses nothing can stand between them.
def additions (h : CallHead) : CallHead :=
  match h.form with
  | .bare => { h with name := ⟨[]⟩, form := .arguments, duplicates := none, clauses := [] }
  | _ => { h with name := ⟨[]⟩ }

-- A name and arguments in their places.
structure IsOrdinary (h : CallHead) (args : List Expr) : Prop where
  nothing : h.additions = { name := ⟨[]⟩ }
  placed : ∀ text, Expr.argument text ∉ args

-- The parts that building a node of a call does not look at.
structure IsHeeded (h : CallHead) : Prop where
  parameters : h.parameters = none
  nulls : h.nulls = none
  unbraced : h.braced = false

end CallHead

-- All calls in an expression.
mutual
def Expr.calls : Expr → List (CallHead × List Expr)
  | .ident _ | .compound _ | .literal _ | .argument _ | .phrase .. => []
  | .binary l _ r => l.calls ++ r.calls
  | .unary _ e | .nested e | .isNull e | .isNotNull e => e.calls
  | .between e _ low high => e.calls ++ (low.calls ++ high.calls)
  | .call h args => (h,args) :: Expr.allCalls args
  | .tuple items => Expr.allCalls items
def Expr.allCalls : List Expr → List (CallHead × List Expr)
  | [] => []
  | e :: es => e.calls ++ Expr.allCalls es
end

theorem Expr.allCalls_flatMap (es : List Expr) : Expr.allCalls es = es.flatMap Expr.calls := by
  induction es with
  | nil => rfl
  | cons e es ih => rw [Expr.allCalls,ih,List.flatMap_cons]

-- The parts of table expressions.

namespace TableReference

-- A name, perhaps with another one for it.
structure IsNamed (t : TableReference) : Prop where
  nothing : t = { name := t.name, start := t.start, asName := t.asName }
  single : ∀ a ∈ t.asName, a.columns = []

-- The parts that building a table does not look at.
structure IsHeeded (t : TableReference) : Prop where
  afterName : t.afterName = ""
  beforeAlias : t.beforeAlias = ""
  afterAlias : t.afterAlias = ""

end TableReference

mutual
def TableFactor.references : TableFactor → List TableReference
  | .table t => [t]
  | .nested relation joins _ => relation.references ++ Join.allReferences joins
  | .phrase _ => []
def Join.allReferences : List Join → List TableReference
  | [] => []
  | .mk _ right :: js => right.references ++ Join.allReferences js
end

def JoinHead.conditions (h : JoinHead) : List Expr :=
  (match h.constraint with | .on e => [e] | _ => []) ++ (match h.operator with | .asOf e => [e] | _ => [])

def Join.calls (j : Join) : List (CallHead × List Expr) := j.head.conditions.flatMap Expr.calls

-- All calls in the conditions of its joins.
def TableFactor.calls (f : TableFactor) : List (CallHead × List Expr) := f.joins.flatMap Join.calls

end Sql

-- A failure that says what has no node.
def Declines (x : Except AnalysisError α) : Prop := ∀ fault, x = .error fault → ∃ construct, fault = .unsupported construct

theorem declines_ok (a : α) : Declines (.ok a) := by
  intro fault failed
  cases failed

theorem declines_unsupported (construct : Construct) : Declines (.error (.unsupported construct) : Except _ α) := by
  rintro _ ⟨⟩
  exact ⟨construct,rfl⟩

theorem declines_bind {x : Except AnalysisError α} {f : α → Except AnalysisError β} (first : Declines x)
    (second : ∀ a, Declines (f a)) : Declines (x >>= f) := by
  cases x with
  | ok a => exact second a
  | error e =>
    rintro _ ⟨⟩
    exact first e rfl

theorem declines_map {x : Except AnalysisError α} (f : α → β) (first : Declines x) : Declines (f <$> x) := by
  cases x with
  | ok a => exact declines_ok _
  | error e =>
    rintro _ ⟨⟩
    exact first e rfl

namespace Node

-- Expressions.

theorem callObstacle?_none (clear : callObstacle? h args = none) :
    h.additions = { name := ⟨[]⟩, parameters := h.parameters, nulls := h.nulls, braced := h.braced } := by
  obtain ⟨name,parameters,form,duplicates,clauses,withinGroup,filter,nulls,window,braced⟩ := h
  unfold callObstacle? at clear
  simp only at clear
  split at clear
  · cases clear
  · split at clear
    · cases clear
    · rename_i noWindow noAggregate
      simp only [Bool.or_eq_true,not_or,Option.not_isSome_iff_eq_none] at noWindow noAggregate
      obtain ⟨rfl,rfl,rfl⟩ := And.intro noWindow noAggregate
      split at clear
      · rfl
      · cases clear
      · split at clear
        · cases clear
        · rename_i unmodified
          simp only [Bool.or_eq_true,not_or,Option.not_isSome_iff_eq_none,Bool.not_eq_true',Bool.not_eq_false,
            List.isEmpty_iff] at unmodified
          obtain ⟨rfl,rfl⟩ := unmodified
          rfl

theorem ofLiteral_declines (l : Literal) : Declines (Constant.ofLiteral l) := by
  unfold Constant.ofLiteral
  split
  · exact declines_ok _
  · split <;> exact declines_unsupported _

theorem negatedLiteral?_declines (e : Expr) : Declines (negatedLiteral? e) := by
  cases e with
  | literal l => exact declines_bind (ofLiteral_declines l) fun _ => declines_ok _
  | _ => exact declines_ok _

mutual
theorem ofExpr_declines (e : Expr) : Declines (ofExpr e) := by
  cases e with
  | ident | compound => exact declines_ok _
  | literal l => exact declines_map _ (ofLiteral_declines l)
  | binary l op r =>
    rw [ofExpr]
    split
    · exact declines_unsupported _
    · exact declines_bind (ofExpr_declines l) fun _ => declines_bind (ofExpr_declines r) fun _ => declines_ok _
  | unary op e =>
    cases op with
    | plus => exact ofExpr_declines e
    | minus =>
      refine declines_bind (negatedLiteral?_declines e) fun folded => ?_
      cases folded with
      | some c => exact declines_ok _
      | none => exact declines_map _ (ofExpr_declines e)
    | not => exact declines_map _ (ofExpr_declines e)
    | other s => exact declines_unsupported _
  | nested e => exact ofExpr_declines e
  | isNull e | isNotNull e => exact declines_map _ (ofExpr_declines e)
  | between e negated low high =>
    exact declines_bind (ofExpr_declines e) fun _ => declines_bind (ofExpr_declines low) fun _ =>
      declines_bind (ofExpr_declines high) fun _ => declines_ok _
  | call h args =>
    rw [ofExpr]
    split
    · exact declines_unsupported _
    · exact declines_map _ (ofArguments_declines args)
  | tuple | argument | phrase => exact declines_unsupported _
theorem ofArguments_declines (es : List Expr) : Declines (ofArguments es) := by
  cases es with
  | nil => exact declines_ok _
  | cons e es =>
    cases e
    case argument s => exact declines_unsupported _
    all_goals exact declines_bind (ofExpr_declines _) fun _ => declines_bind (ofArguments_declines es) fun _ => declines_ok _
end

-- What is known of each call in an expression that has a node.
def IsBuilt (c : CallHead × List Expr) : Prop := callObstacle? c.1 c.2 = none ∧ ∀ text, Expr.argument text ∉ c.2

theorem isOrdinary_iff (built : IsBuilt c) : c.1.IsOrdinary c.2 ↔ c.1.IsHeeded := by
  obtain ⟨clear,placed⟩ := built
  have rest := callObstacle?_none clear
  constructor
  · rintro ⟨nothing,_⟩
    rw [rest,CallHead.mk.injEq] at nothing
    obtain ⟨_,parameters,_,_,_,_,_,nulls,_,unbraced⟩ := nothing
    exact ⟨parameters,nulls,unbraced⟩
  · rintro ⟨parameters,nulls,unbraced⟩
    exact ⟨by rw [rest,parameters,nulls,unbraced],placed⟩

theorem HasNode.calls (has : HasNode e n) : ∀ c ∈ e.calls, IsBuilt c := by
  induction has with
  | ident | compound | literal | folded => exact List.forall_mem_nil _
  | binary _ _ _ left right => exact List.forall_mem_append.mpr ⟨left,right⟩
  | plus _ inner | negate _ _ inner | not _ inner | nested _ inner | isNull _ inner | isNotNull _ inner => exact inner
  | between _ _ _ _ value low high =>
    exact List.forall_mem_append.mpr ⟨value,List.forall_mem_append.mpr ⟨low,high⟩⟩
  | call clear size nodes each =>
    refine List.forall_mem_cons.mpr ⟨⟨clear,fun text listed => ?_⟩,?_⟩
    · obtain ⟨n,inside⟩ := node_of_argument size listed
      cases nodes _ inside
    · rw [Expr.allCalls_flatMap,List.forall_mem_flatMap]
      intro e listed
      obtain ⟨n,inside⟩ := node_of_argument size listed
      exact each _ inside

theorem ofExpr_calls (e : Expr) (built : ofExpr e = .ok n) : ∀ c ∈ e.calls, IsBuilt c := (ofExpr_hasNode e built).calls

-- Tables.

theorem ofTable_declines (t : TableReference) : Declines (ofTable t) := by
  unfold ofTable
  split
  · exact declines_unsupported _
  · split
    · exact declines_ok _
    · split
      · exact declines_ok _
      · exact declines_unsupported _

theorem isNamed_iff (built : ofTable t = .ok n) : t.IsNamed ↔ t.IsHeeded := by
  obtain ⟨name,start,afterName,arguments,beforeAlias,asName,afterAlias⟩ := t
  unfold ofTable at built
  split at built
  · cases built
  · rename_i free
    obtain rfl : arguments = none := Option.not_isSome_iff_eq_none.mp free
    constructor
    · rintro ⟨nothing,_⟩
      simp only [TableReference.mk.injEq,true_and] at nothing
      exact ⟨nothing.1,nothing.2.1,nothing.2.2⟩
    · rintro ⟨rfl,rfl,rfl⟩
      refine ⟨rfl,?_⟩
      rintro a ⟨⟩
      simp only at built
      split at built
      · rename_i bare
        exact List.isEmpty_iff.mp bare
      · cases built

end Node

-- Joins.

def JoinClause.calls (c : JoinClause) : List (CallHead × List Expr) := c.condition.elim [] Expr.calls

theorem JoinClause.withConstraint_calls {c : JoinClause} {constraint : JoinConstraint} (bare : c.condition = none)
    (read : c.withConstraint join constraint = .ok c') : c'.calls = (JoinHead.mk global .join constraint).conditions.flatMap Expr.calls := by
  cases constraint
  case on e =>
    cases read
    exact (List.append_nil _).symm
  case natural => cases read
  case none =>
    cases read
    rw [calls,bare]
    rfl
  -- A USING list is added to the clause.
  · obtain ⟨is,_,rfl⟩ := map_ok.mp read
    rw [calls,bare]
    rfl

theorem JoinClause.ofJoin_calls (read : ofJoin j = .ok c) : c.calls = j.calls := by
  obtain ⟨⟨global,operator,constraint⟩,right⟩ := j
  unfold ofJoin at read
  simp only [Join.head] at read
  split at read
  · cases read
    exact congrArg (_ ++ ·) (List.append_nil _).symm
  · cases read
    exact (List.append_nil _).symm
  · cases read
  · rename_i plain _ _
    split at read
    · rename_i kind strictness found
      have other : (JoinHead.mk global operator constraint).conditions = (JoinHead.mk global .join constraint).conditions := by
        cases operator with
        | asOf e => cases found
        | _ => rfl
      rw [withConstraint_calls rfl read]
      exact congrArg (List.flatMap Expr.calls) other.symm
    · cases read

theorem JoinHints.clauseOf_calls {hints : JoinHints} (read : hints.clauseOf j = .ok c) : c.calls = j.calls := by
  obtain ⟨c',joined,read⟩ := bind_ok.mp read
  rw [← JoinClause.ofJoin_calls joined]
  split at read
  · have kept := congrArg JoinClause.calls (JoinHint.apply_ok read).1
    exact kept
  · cases read
    rfl

-- The words taken out of a join can be put back, and its clause has no defect.
def JoinHints.Fits (hints : JoinHints) (j : Join) : Prop := ∃ c, hints.clauseOf j = .ok c ∧ c.defect? = none

namespace Node

theorem constraintOf_declines (c : JoinClause) : Declines (constraintOf c) := by
  unfold constraintOf
  split
  · exact declines_ok _
  · exact declines_map _ (ofExpr_declines _)
  · exact declines_ok _

theorem constraintOf_calls (sound : c.defect? = none) (built : constraintOf c = .ok e) : ∀ call ∈ c.calls, IsBuilt call := by
  unfold constraintOf at built
  split at built
  · rename_i columns given
    -- A clause with both constraints has a defect.
    have free : c.condition = none := by
      cases both : c.condition with
      | none => rfl
      | some e => simp [JoinClause.defect?,both,given] at sound
    rw [JoinClause.calls,free]
    exact List.forall_mem_nil _
  · rename_i e _ given
    obtain ⟨n,expression,_⟩ := map_ok.mp built
    rw [JoinClause.calls,given]
    exact ofExpr_calls e expression
  · rename_i _ free
    rw [JoinClause.calls,free]
    exact List.forall_mem_nil _

theorem joined_declines (l r : Node) (sound : c.defect? = none) : Declines (joined l r c).result := by
  unfold joined
  split
  · rename_i defect found
    rw [sound] at found
    cases found
  · simp only [Noted.result_bind,Noted.result_note,Noted.result_lift]
    exact declines_map _ (constraintOf_declines c)

-- Table expressions.

variable {hints : JoinHints}

theorem built_rules (hints : JoinHints) : BuildRules hints
    (fun f _ => (∀ t ∈ f.references, t.IsNamed ↔ t.IsHeeded) ∧ ∀ c ∈ f.calls, IsBuilt c)
    (fun _ joins _ => (∀ t ∈ Join.allReferences joins, t.IsNamed ↔ t.IsHeeded) ∧
      ∀ c ∈ (Join.throughout joins).flatMap Join.calls, IsBuilt c) := by
  constructor
  case table => exact fun t n built => ⟨List.forall_mem_singleton.mpr (isNamed_iff built),List.forall_mem_nil _⟩
  case nested =>
    rintro relation joins _ _ ⟨tables,calls⟩ ⟨tables',calls'⟩
    simp only [TableFactor.references,TableFactor.calls,TableFactor.joins,List.flatMap_append]
    exact ⟨List.forall_mem_append.mpr ⟨tables,tables'⟩,List.forall_mem_append.mpr ⟨calls,calls'⟩⟩
  case nil => exact fun _ => ⟨List.forall_mem_nil _,List.forall_mem_nil _⟩
  case cons =>
    rintro _ head factor joins _ c _ _ given sound constraint ⟨tables,calls⟩ ⟨tables',calls'⟩
    have own := constraintOf_calls sound constraint
    rw [JoinHints.clauseOf_calls given] at own
    simp only [Join.allReferences,Join.throughout,List.flatMap_cons,List.flatMap_append]
    exact ⟨List.forall_mem_append.mpr ⟨tables,tables'⟩,
      List.forall_mem_append.mpr ⟨own,List.forall_mem_append.mpr ⟨calls,calls'⟩⟩⟩

mutual
theorem ofFactor_declines (f : TableFactor) (fits : ∀ j ∈ f.joins, hints.Fits j) : Declines (ofFactor hints f).result := by
  cases f with
  | table t => exact ofTable_declines t
  | nested relation joins asName =>
    cases asName with
    | some a => exact declines_unsupported _
    | none =>
      obtain ⟨left,right⟩ := List.forall_mem_append.mp fits
      simp only [ofFactor,Noted.result_bind]
      exact declines_bind (ofFactor_declines relation left) fun l => ofJoins_declines l joins right
  | phrase p => exact declines_unsupported _
theorem ofJoins_declines (l : Node) (joins : List Join) (fits : ∀ j ∈ Join.throughout joins, hints.Fits j) :
    Declines (ofJoins hints l joins).result := by
  cases joins with
  | nil => exact declines_ok _
  | cons j joins =>
    obtain ⟨head,factor⟩ := j
    obtain ⟨⟨clause,given,sound⟩,others⟩ := List.forall_mem_cons.mp fits
    obtain ⟨right,behind⟩ := List.forall_mem_append.mp others
    simp only [ofJoins,given,Noted.result_bind,Noted.result_lift,mapError_value,Reading.ok_bind]
    exact declines_bind (ofFactor_declines factor right) fun r => declines_bind (joined_declines l r sound) fun both =>
      ofJoins_declines both joins behind
end

-- Whole expressions and whole table expressions.

theorem fails_unsupported {x : Except AnalysisError α} (declines : Declines x) (failed : ∀ a, x ≠ .ok a) :
    ∃ construct, x = .error (.unsupported construct) := by
  cases x with
  | ok a => exact absurd rfl (failed a)
  | error fault =>
    obtain ⟨construct,rfl⟩ := declines fault rfl
    exact ⟨construct,rfl⟩

theorem ofExpr_ordinary (e : Expr) (built : ofExpr e = .ok n) : ∀ c ∈ e.calls, c.1.IsOrdinary c.2 ↔ c.1.IsHeeded :=
  fun c listed => isOrdinary_iff (ofExpr_calls e built c listed)

theorem ofFactor_ordinary (f : TableFactor) (built : (ofFactor hints f).result = .ok n) :
    ∀ c ∈ f.calls, c.1.IsOrdinary c.2 ↔ c.1.IsHeeded :=
  fun c listed => isOrdinary_iff (((built_rules hints).factor f built).2 c listed)

theorem ofExpr_refuses (e : Expr) (extra : ∃ c ∈ e.calls, c.1.IsHeeded ∧ ¬c.1.IsOrdinary c.2) :
    ∃ construct, ofExpr e = .error (.unsupported construct) := by
  obtain ⟨c,listed,heeded,more⟩ := extra
  apply fails_unsupported (ofExpr_declines e)
  intro n built
  exact more ((ofExpr_ordinary e built c listed).mpr heeded)

theorem ofFactor_refuses (f : TableFactor) (extra : (∃ t ∈ f.references, t.IsHeeded ∧ ¬t.IsNamed) ∨
    ∃ c ∈ f.calls, c.1.IsHeeded ∧ ¬c.1.IsOrdinary c.2) : ∀ n, (ofFactor hints f).result ≠ .ok n := by
  intro n built
  rcases extra with ⟨t,listed,heeded,more⟩ | ⟨c,listed,heeded,more⟩
  · exact more ((((built_rules hints).factor f built).1 t listed).mpr heeded)
  · exact more ((ofFactor_ordinary f built c listed).mpr heeded)

theorem additions_unique (heeded : CallHead.IsHeeded h) (heeded' : CallHead.IsHeeded h') (built : ofExpr (.call h args) = .ok n)
    (built' : ofExpr (.call h' args') = .ok n') : h.additions = h'.additions := by
  have ordinary := (ofExpr_ordinary _ built (h,args) List.mem_cons_self).mpr heeded
  have ordinary' := (ofExpr_ordinary _ built' (h',args') List.mem_cons_self).mpr heeded'
  exact ordinary.nothing.trans ordinary'.nothing.symm

-- In what is built, a call is a name with arguments and a table a name, perhaps with another one for it, exactly if none of
-- the parts that are not looked at is there. All other parts are refused.
theorem built_whole (e : Expr) (hints : JoinHints) (f : TableFactor) :
    (∀ n, ofExpr e = .ok n → ∀ c ∈ e.calls, c.1.IsOrdinary c.2 ↔ c.1.IsHeeded) ∧
    ((∃ c ∈ e.calls, c.1.IsHeeded ∧ ¬c.1.IsOrdinary c.2) → ∃ construct, ofExpr e = .error (.unsupported construct)) ∧
    (∀ h h' args args' n, h.IsHeeded → h'.IsHeeded → ofExpr (.call h args) = .ok n → ofExpr (.call h' args') = .ok n →
      h.additions = h'.additions) ∧
    (∀ n, (ofFactor hints f).result = .ok n →
      (∀ t ∈ f.references, t.IsNamed ↔ t.IsHeeded) ∧ ∀ c ∈ f.calls, c.1.IsOrdinary c.2 ↔ c.1.IsHeeded) ∧
    ((∃ t ∈ f.references, t.IsHeeded ∧ ¬t.IsNamed) ∨ (∃ c ∈ f.calls, c.1.IsHeeded ∧ ¬c.1.IsOrdinary c.2) →
      ∃ fault, (ofFactor hints f).result = .error fault ∧
        ((∀ j ∈ f.joins, hints.Fits j) → ∃ construct, fault = .unsupported construct)) := by
  refine ⟨?_,ofExpr_refuses e,?_,?_,?_⟩
  · intro n built
    exact ofExpr_ordinary e built
  · intro h h' args args' n heeded heeded' built built'
    exact additions_unique heeded heeded' built built'
  · intro n built
    exact ⟨((built_rules hints).factor f built).1,ofFactor_ordinary f built⟩
  · intro extra
    cases result : (ofFactor hints f).result with
    | ok n => exact absurd result (ofFactor_refuses f extra n)
    | error fault =>
      refine ⟨fault,rfl,?_⟩
      intro fits
      exact ofFactor_declines f fits fault result

-- `f(x, g())` on its own and behind ON, `x = g() OVER ()`, and a join with `b` or with `b(1)`.
theorem built_whole_nested :
    let named (s : String) : ObjectName := .ofIdents [⟨s,none⟩]
    let inner : CallHead := { name := named "g" }
    let plain : Expr := .call { name := named "f" } [.ident ⟨"x",none⟩,.call inner []]
    let windowed : Expr := .binary (.ident ⟨"x",none⟩) .eq (.call { inner with window := some "()" } [])
    let table (s : String) (arguments : Option String) : TableFactor := .table { name := named s, start := ⟨1,1⟩, arguments }
    let joined (arguments : Option String) : TableFactor :=
      .nested (table "a" none) [.mk ⟨false,.join,.on plain⟩ (table "b" arguments)] none
    (∀ c ∈ plain.calls, c.1.IsOrdinary c.2) ∧ (∃ construct, ofExpr windowed = .error (.unsupported construct)) ∧
      inner.additions = { inner with form := .bare }.additions ∧ (∀ c ∈ (joined none).calls, c.1.IsOrdinary c.2) ∧
      ∃ construct, (ofFactor [] (joined (some "1"))).result = .error (.unsupported construct) := by
  intro named inner plain windowed table joined
  have bare : ∀ c ∈ plain.calls, c.1.IsHeeded := by
    intro c listed
    obtain rfl | rfl := List.mem_pair.mp listed
    · exact ⟨rfl,rfl,rfl⟩
    · exact ⟨rfl,rfl,rfl⟩
  have fits : ∀ arguments, ∀ j ∈ (joined arguments).joins, JoinHints.Fits [] j := by
    intro arguments j listed
    rw [List.mem_singleton.mp listed]
    exact ⟨_,rfl,rfl⟩
  have extra : ¬({ inner with window := some "()" } : CallHead).IsOrdinary [] := fun ordinary => by cases ordinary.nothing
  have more : ¬({ name := named "b", start := ⟨1,1⟩, arguments := some "1" } : TableReference).IsNamed :=
    fun only => by cases only.nothing
  refine ⟨?_,?_,?_,?_,?_⟩
  · intro c listed
    exact ((built_whole plain [] (joined none)).1 _ rfl c listed).mpr (bare c listed)
  · exact (built_whole windowed [] (joined none)).2.1 ⟨_,List.mem_singleton_self _,⟨rfl,rfl,rfl⟩,extra⟩
  · exact (built_whole plain [] (joined none)).2.2.1 inner { inner with form := .bare } [] [] _ ⟨rfl,rfl,rfl⟩ ⟨rfl,rfl,rfl⟩ rfl rfl
  · intro c listed
    exact (((built_whole plain [] (joined none)).2.2.2.1 _ rfl).2 c listed).mpr (bare c listed)
  · obtain ⟨fault,failed,declined⟩ := (built_whole plain [] (joined (some "1"))).2.2.2.2
      (.inl ⟨_,List.mem_cons_of_mem _ (List.mem_singleton_self _),⟨rfl,rfl,rfl⟩,more⟩)
    obtain ⟨construct,rfl⟩ := declined (fits _)
    exact ⟨construct,failed⟩

-- The parameters of `quantile(0.9)(x)` are dropped, so that it is the same as `quantile(0.5)(x)`. The part of a table
-- that a sample takes is dropped too.
theorem parameters_dropped :
    let head (parameters : String) : CallHead := { name := .ofIdents [⟨"quantile",none⟩], parameters := some parameters }
    let heads (sql : String) := (parseExpr .clickHouse sql).toOption.map fun e => e.calls.map Prod.fst
    let sampled : TableReference := { name := .ofIdents [⟨"t",none⟩], start := ⟨1,15⟩, afterAlias := " SAMPLE 1 / 10" }
    heads "quantile(0.9)(x)" = some [head "(0.9)"] ∧ heads "quantile(0.5)(x)" = some [head "(0.5)"] ∧
      (head "(0.9)").additions ≠ (head "(0.5)").additions ∧
      ofExprText .clickHouse "quantile(0.9)(x)" = .ok (call "quantile" [identifier ["x"]]) ∧
      ofExprText .clickHouse "quantile(0.5)(x)" = .ok (call "quantile" [identifier ["x"]]) ∧
      ¬sampled.IsNamed ∧ ofTable sampled = .ok (table "t" none) := by
  intro head heads sampled
  refine ⟨?_,?_,?_,?_,?_,?_,rfl⟩
  · decide +kernel
  · decide +kernel
  · decide
  · decide +kernel
  · decide +kernel
  · intro named
    have empty : sampled.afterAlias = "" := congrArg TableReference.afterAlias named.nothing
    exact absurd empty (by decide)

end Node

end JoinTree
