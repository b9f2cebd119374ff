import JoinTree.Clause
import JoinTree.Tree.OfExpr

/-!
The condition of an ASOF join, which is written as a match condition and the conjuncts in front of it. Main statement: it is
put together again to a condition with the same conjuncts in the same order, of which the same tree is built.
-/

namespace JoinTree

open Sql

namespace Sql.Expr

theorem unnested_bare (e e' : Expr) : e.unnested ≠ nested e' := by
  fun_induction unnested e with
  | case1 e ih => exact ih
  | case2 e other => exact other e'

theorem unnested_of_bare {e : Expr} (bare : ∀ e', e ≠ nested e') : e.unnested = e := by
  cases e with
  | nested e => exact absurd rfl (bare e)
  | _ => rfl

theorem unnested_unnested (e : Expr) : e.unnested.unnested = e.unnested := unnested_of_bare (unnested_bare e)

-- The conjuncts of a condition in their order, however they are grouped.
def conjuncts : Expr → List Expr
  | nested e => e.conjuncts
  | binary l .and r => l.conjuncts ++ r.conjuncts
  | e => [e]

theorem conjuncts_unnested (e : Expr) : e.unnested.conjuncts = e.conjuncts := by
  fun_induction unnested e with
  | case1 e ih => rw [ih,conjuncts]
  | case2 => rfl

end Sql.Expr

namespace Node

theorem ofExpr_unnested (e : Expr) : ofExpr e.unnested = ofExpr e := by
  fun_induction Expr.unnested e with
  | case1 e ih => rw [ih,ofExpr]
  | case2 => rfl

theorem ofExpr_and (left : ofExpr l = ofExpr l') (right : ofExpr r = ofExpr r') :
    ofExpr (.binary l .and r) = ofExpr (.binary l' .and r') := by simp only [ofExpr,left,right]

end Node

namespace JoinClause

-- What is split off: the right side of the outermost conjunction, or all of a condition that is none.
theorem splitMatchCondition_cases (e : Expr) :
    (∃ l r, e.unnested = .binary l .and r ∧ splitMatchCondition e = (some l.unnested,r.unnested)) ∨
      splitMatchCondition e = (none,e.unnested) := by
  unfold splitMatchCondition
  split
  · rename_i l r conjunction
    exact .inl ⟨l,r,conjunction,rfl⟩
  · exact .inr rfl

-- The condition that is read for the two parts.
def joinedCondition (rest : Option Expr) (last : Expr) : Expr :=
  match rest with
  | some e => .binary e .and last
  | none => last

theorem ofJoin_matched (global : Bool) (rest : Option Expr) (last : Expr) (right : TableFactor) :
    ofJoin (.mk ⟨global,.asOf last,rest.elim .none .on⟩ right) =
      .ok { locality := if global then .global else .unspecified, strictness := .asof,
            condition := some (joinedCondition rest last) } := by
  cases rest <;> rfl

theorem constraint_matched (locality : Locality) (split : splitMatchCondition e = (rest,last)) :
    ({ locality, strictness := .asof, condition := some e } : JoinClause).constraint =
      s!" MATCH_CONDITION ({last.text})" ++ (rest.map fun e => s!" ON {e.text}").getD "" := by
  simp [constraint,conditionText,split]

theorem splitMatchCondition_joined (split : splitMatchCondition e = (rest,last)) :
    splitMatchCondition (joinedCondition rest last) = (rest,last) := by
  rcases splitMatchCondition_cases e with ⟨l,r,_,parts⟩ | whole
  · cases split.symm.trans parts
    simp only [joinedCondition,splitMatchCondition,Expr.unnested,Expr.unnested_unnested]
  · cases split.symm.trans whole
    unfold joinedCondition splitMatchCondition at *
    rwa [Expr.unnested_unnested]

theorem conjuncts_joined (split : splitMatchCondition e = (rest,last)) : (joinedCondition rest last).conjuncts = e.conjuncts := by
  rw [← Expr.conjuncts_unnested e]
  rcases splitMatchCondition_cases e with ⟨l,r,conjunction,parts⟩ | whole
  · cases split.symm.trans parts
    rw [conjunction,joinedCondition,Expr.conjuncts,Expr.conjuncts,Expr.conjuncts_unnested,Expr.conjuncts_unnested]
  · cases split.symm.trans whole
    rfl

theorem ofExpr_joined (split : splitMatchCondition e = (rest,last)) : Node.ofExpr (joinedCondition rest last) = Node.ofExpr e := by
  rw [← Node.ofExpr_unnested e]
  rcases splitMatchCondition_cases e with ⟨l,r,conjunction,parts⟩ | whole
  · cases split.symm.trans parts
    rw [conjunction,joinedCondition]
    exact Node.ofExpr_and (Node.ofExpr_unnested l) (Node.ofExpr_unnested r)
  · cases split.symm.trans whole
    rfl

-- A condition that is written in two parts and read again has the same conjuncts, whatever is in parentheses; the same tree
-- is built of it, or building fails for the same reason; and it is split into the same parts.
theorem splitMatchCondition_lossless (e : Expr) (locality : Locality) (global : Bool) (right : TableFactor) :
    ∃ (rest : Option Expr) (last read : Expr), splitMatchCondition e = (rest,last) ∧
      ({ locality, strictness := .asof, condition := some e } : JoinClause).constraint =
        s!" MATCH_CONDITION ({last.text})" ++ (rest.map fun e => s!" ON {e.text}").getD "" ∧
      ofJoin (.mk ⟨global,.asOf last,rest.elim .none .on⟩ right) =
        .ok { locality := if global then .global else .unspecified, strictness := .asof, condition := some read } ∧
      Node.ofExpr read = Node.ofExpr e ∧ read.conjuncts = e.conjuncts ∧ splitMatchCondition read = (rest,last) := by
  obtain ⟨⟨rest,last⟩,split⟩ : ∃ parts, splitMatchCondition e = parts := ⟨_,rfl⟩
  exact ⟨rest,last,joinedCondition rest last,split,constraint_matched locality split,ofJoin_matched global rest last right,
    ofExpr_joined split,conjuncts_joined split,splitMatchCondition_joined split⟩

-- Parentheses around the whole, around its conjunction and around conjuncts, of which only the first is a conjunction.
example :
    let a := Expr.ident ⟨"a",none⟩; let b := Expr.ident ⟨"b",none⟩; let c := Expr.ident ⟨"c",none⟩
    splitMatchCondition (.nested (.nested (.binary (.nested (.binary a .and (.nested b))) .and (.nested (.nested c))))) =
      (some (.binary a .and (.nested b)),c) := rfl

end JoinClause

end JoinTree
