import JoinTree.Proofs.TreeListing

/-!
The order of a built tree. Main statement: from left to right the tables and joins of a tree are those of its FROM
clause, where a join stands in front of the relation behind it and a comma in front of the next entry. Each join has what
stands in front of it on its left side.
-/

namespace JoinTree

open Sql

-- What becomes a node: a relation, a join with the part of its entry in front of it, a comma with the entries in front of
-- it.
inductive FromPart where
  | relation (f : TableFactor)
  | join (before : FromEntry) (j : Join)
  | comma (before : List FromEntry) (next : FromEntry)

-- The parts of a FROM clause in the order of its text.
mutual
def Sql.TableFactor.parts : TableFactor → List FromPart
  | .table t => [.relation (.table t)]
  | .nested relation joins _ => relation.parts ++ Sql.Join.partsBehind relation [] joins
  | .phrase p => [.relation (.phrase p)]
def Sql.Join.partsBehind (relation : TableFactor) (before : List Join) : List Join → List FromPart
  | [] => []
  | .mk head right :: js =>
    .join ⟨relation,before⟩ (.mk head right) :: (right.parts ++ Sql.Join.partsBehind relation (before ++ [.mk head right]) js)
end

def Sql.FromEntry.parts (e : FromEntry) : List FromPart := e.relation.parts ++ Join.partsBehind e.relation [] e.joins

def Sql.FromEntry.partsBehind (before : List FromEntry) : List FromEntry → List FromPart
  | [] => []
  | e :: es => .comma before e :: (e.parts ++ Sql.FromEntry.partsBehind (before ++ [e]) es)

def Sql.FromEntry.partsOf : List FromEntry → List FromPart
  | [] => []
  | e :: es => e.parts ++ partsBehind [e] es

namespace Node

-- The tables and joins of a tree from left to right.
def inOrder : Node → List Node
  | join spec l r e => l.inOrder ++ join spec l r e :: r.inOrder
  | table name asName => [table name asName]
  | _ => []

-- The node of a part. A join has the tree of all in front of it in its entry on the left and that of its whole relation on
-- the right.
inductive Builds (hints : JoinHints) : FromPart → Node → Prop where
  | table : Builds hints (.relation (.table t)) (table t.name.text (t.asName.map (·.name.value)))
  | join : hints.clauseOf j = .ok clause → (ofEntry hints before).result = .ok left → (ofFactor hints j.right).result = .ok right →
      constraintOf clause = .ok e → Builds hints (.join before j) (join clause.spec left right e)
  | comma : (ofEntries hints before).result = .ok left → (ofEntry hints next).result = .ok right →
      Builds hints (.comma before next) (join { kind := .comma } left right none)

variable {hints : JoinHints}

-- A further join takes the tree of what stands in front of it.
theorem ofJoins_snoc (front : (ofJoins hints n js).result = .ok left) (given : hints.clauseOf (.mk head factor) = .ok clause)
    (read : (ofFactor hints factor).result = .ok right) (whole : (joined left right clause).result = .ok n') :
    (ofJoins hints n (js ++ [.mk head factor])).result = .ok n' := by
  induction js generalizing n with
  | nil =>
    cases front
    simp only [List.nil_append,ofJoins,Noted.result_bind,Noted.result_lift,given,mapError_value,bind_ok]
    exact ⟨clause,rfl,right,read,n',whole,rfl⟩
  | cons j js ih =>
    obtain ⟨head',factor'⟩ := j
    simp only [List.cons_append,ofJoins,Noted.result_bind,bind_ok] at front ⊢
    obtain ⟨clause',given',right',read',both,inner,front⟩ := front
    exact ⟨clause',given',right',read',both,inner,ih front⟩

theorem ofEntry_snoc (front : (ofEntry hints ⟨relation,js⟩).result = .ok left)
    (given : hints.clauseOf (.mk head factor) = .ok clause) (read : (ofFactor hints factor).result = .ok right)
    (whole : (joined left right clause).result = .ok n) : (ofEntry hints ⟨relation,js ++ [.mk head factor]⟩).result = .ok n := by
  simp only [ofEntry,Noted.result_bind,bind_ok] at front ⊢
  obtain ⟨first,own,front⟩ := front
  exact ⟨first,own,ofJoins_snoc front given read whole⟩

theorem ofEntries_snoc (front : (ofEntries hints es).result = .ok left) (read : (ofEntry hints e).result = .ok right)
    (whole : (joined left right .comma).result = .ok n) : (ofEntries hints (es ++ [e])).result = .ok n := by
  cases es with
  | nil => cases front
  | cons first es =>
    simp only [ofEntries,Noted.result_bind,bind_ok,List.cons_append] at front ⊢
    obtain ⟨n₀,own,front⟩ := front
    refine ⟨n₀,own,?_⟩
    clear own
    induction es generalizing n₀ with
    | nil =>
      cases front
      simp only [List.nil_append,List.foldlM_cons,Noted.result_bind,bind_ok]
      exact ⟨n,⟨right,read,whole⟩,rfl⟩
    | cons e' es ih =>
      simp only [List.cons_append,List.foldlM_cons,Noted.result_bind,bind_ok] at front ⊢
      obtain ⟨n₁,inner,front⟩ := front
      exact ⟨n₁,inner,ih n₁ front⟩

-- The parts in front of a list of joins are those of the tree that the joins start from.
mutual
theorem ofFactor_parts (f : TableFactor) (built : (ofFactor hints f).result = .ok n) :
    List.Forall₂ (Builds hints) f.parts n.inOrder := by
  cases f with
  | table t =>
    rw [ofTable_ok built]
    exact .cons .table .nil
  | nested relation joins asName =>
    cases asName with
    | some a => cases built
    | none =>
      simp only [ofFactor,Noted.result_bind,bind_ok] at built
      obtain ⟨left,first,built⟩ := built
      have front : (ofEntry hints ⟨relation,[]⟩).result = .ok left := by
        simp only [ofEntry,Noted.result_bind,bind_ok]
        exact ⟨left,first,rfl⟩
      exact ofJoins_parts relation [] joins front (ofFactor_parts relation first) built
  | phrase p => cases built
theorem ofJoins_parts (relation : TableFactor) (before joins : List Join)
    (front : (ofEntry hints ⟨relation,before⟩).result = .ok left) (listed : List.Forall₂ (Builds hints) ps left.inOrder)
    (built : (ofJoins hints left joins).result = .ok n) :
    List.Forall₂ (Builds hints) (ps ++ Join.partsBehind relation before joins) n.inOrder := by
  cases joins with
  | nil =>
    cases built
    rwa [Join.partsBehind,List.append_nil]
  | cons j joins =>
    obtain ⟨head,factor⟩ := j
    simp only [ofJoins,Noted.result_bind,bind_ok] at built
    obtain ⟨clause,given,right,read,both,whole,built⟩ := built
    have given := mapError_ok.mp given
    have longer := ofEntry_snoc front given read whole
    obtain ⟨_,e,constraint,rfl⟩ := joined_ok whole
    have own : Builds hints (.join ⟨relation,before⟩ (.mk head factor)) (.join clause.spec left right e) :=
      .join given front read constraint
    have more := List.rel_append listed (.cons own (ofFactor_parts factor read))
    have rest := ofJoins_parts relation (before ++ [.mk head factor]) joins longer more built
    simpa [Join.partsBehind] using rest
end

theorem ofEntry_parts (built : (ofEntry hints e).result = .ok n) : List.Forall₂ (Builds hints) e.parts n.inOrder := by
  simp only [ofEntry,Noted.result_bind,bind_ok] at built
  obtain ⟨left,first,built⟩ := built
  have front : (ofEntry hints ⟨e.relation,[]⟩).result = .ok left := by
    simp only [ofEntry,Noted.result_bind,bind_ok]
    exact ⟨left,first,rfl⟩
  exact ofJoins_parts e.relation [] e.joins front (ofFactor_parts e.relation first) built

theorem entries_parts (before es : List FromEntry) (front : (ofEntries hints before).result = .ok left)
    (listed : List.Forall₂ (Builds hints) ps left.inOrder)
    (built : (es.foldlM (fun l e => do joined l (← ofEntry hints e) .comma) left : Noted AnalysisError Node).result = .ok n) :
    List.Forall₂ (Builds hints) (ps ++ FromEntry.partsBehind before es) n.inOrder := by
  induction es generalizing left before ps with
  | nil =>
    cases built
    rwa [FromEntry.partsBehind,List.append_nil]
  | cons e es ih =>
    simp only [List.foldlM_cons,Noted.result_bind,bind_ok] at built
    obtain ⟨both,⟨right,read,whole⟩,built⟩ := built
    have longer := ofEntries_snoc front read whole
    obtain rfl := joined_comma whole
    have more := List.rel_append listed (.cons (Builds.comma front read) (ofEntry_parts read))
    have rest := ih (before ++ [e]) longer more built
    simpa [FromEntry.partsBehind] using rest

-- A tree has one table for each relation of its FROM clause, and one join for each JOIN and each comma, in their order.
theorem ofEntries_in_order (hints : JoinHints) (es : List FromEntry) (n : Node) (built : (ofEntries hints es).result = .ok n) :
    List.Forall₂ (Builds hints) (FromEntry.partsOf es) n.inOrder := by
  cases es with
  | nil => cases built
  | cons e es =>
    simp only [ofEntries,Noted.result_bind,bind_ok] at built
    obtain ⟨first,own,built⟩ := built
    have front : (ofEntries hints [e]).result = .ok first := by
      simp only [ofEntries,Noted.result_bind,bind_ok]
      exact ⟨first,own,rfl⟩
    exact entries_parts [e] es front (ofEntry_parts own) built

-- `a, (b ANY LEFT JOIN c USING (id)) CROSS JOIN d AS x`, the word ANY being kept under the place of `c`.
theorem ofEntries_in_order_nested :
    let named (s : String) (column : Nat) (a : Option TableAlias) : TableFactor :=
      .table { name := .ofIdents [⟨s,none⟩], start := ⟨1,column⟩, asName := a }
    let inner : List Join := [.mk ⟨false,.left,.using [.ofIdents [⟨"id",none⟩]]⟩ (named "c" 36 none)]
    let last : Join := .mk ⟨false,.cross,.none⟩ (named "d" 61 (some ⟨⟨"x",none⟩,true,[]⟩))
    let es : List FromEntry := [⟨named "a" 15 none,[]⟩,⟨.nested (named "b" 19 none) inner none,[last]⟩]
    let hints : JoinHints := [(⟨1,36⟩,{ strictness := some .any })]
    let left : Node := .join { strictness := .any, kind := .left } (.table "b" none) (.table "c" none) (some (.list [ident "id"]))
    let n : Node := .join { kind := .comma } (.table "a" none) (.join { kind := .cross } left (.table "d" (some "x")) none) none
    (ofEntries hints es).result = .ok n ∧ List.Forall₂ (Builds hints) (FromEntry.partsOf es) n.inOrder ∧
      n.inOrder.map type = [.table,.join,.table,.join,.table,.join,.table] := by
  intro named inner last es hints left n
  exact ⟨rfl,ofEntries_in_order hints es n rfl,rfl⟩

end Node

end JoinTree
