import Mathlib.Data.Option.Basic
import JoinTree.Proofs.Wholeness

/-!
Statements that differ in the quotes of their names. Main statement: where the one builds a tree so does the other, and the trees
differ at most in the names of tables, which keep their quotes.
-/

namespace JoinTree

open Sql

namespace Sql

-- The same name, or one that has bare parts put in quotes.

def NamePart.requoted : NamePart → NamePart → Bool
  | .ident ⟨value,none⟩, .ident i => value = i.value
  | p, p' => p = p'

def ObjectName.requoted (n n' : ObjectName) : Bool := n.parts.isEqv n'.parts NamePart.requoted

-- A call as far as its parts are no texts in which names may stand.
def CallHead.outline (h : CallHead) : CallHead :=
  { h with
    parameters := h.parameters.map fun _ => ""
    form := match h.form with | .subquery _ => .subquery "" | form => form
    clauses := h.clauses.map fun _ => ""
    withinGroup := h.withinGroup.map fun _ => ""
    filter := h.filter.map fun _ => ""
    window := h.window.map fun _ => "" }

-- The same expression but for the quotes of names. Of what is kept as text it only counts that it is there.
mutual
def Expr.alike : Expr → Expr → Bool
  | .ident i, .ident j => i.value = j.value
  | .compound is, .compound js => is.map Ident.value = js.map Ident.value
  | .literal l, .literal m => l = m
  | .binary l op r, .binary l' op' r' => l.alike l' && op = op' && r.alike r'
  | .unary op e, .unary op' e' => op = op' && e.alike e'
  | .nested e, .nested e' => e.alike e'
  | .isNull e, .isNull e' => e.alike e'
  | .isNotNull e, .isNotNull e' => e.alike e'
  | .between e negated low high, .between e' negated' low' high' =>
    e.alike e' && negated = negated' && low.alike low' && high.alike high'
  | .call h args, .call h' args' => h.outline = h'.outline && Expr.allAlike args args'
  | .tuple es, .tuple es' => Expr.allAlike es es'
  | .argument _, .argument _ => true
  | .phrase k _, .phrase k' _ => k = k'
  | _, _ => false
def Expr.allAlike : List Expr → List Expr → Bool
  | [], [] => true
  | e :: es, e' :: es' => e.alike e' && Expr.allAlike es es'
  | _, _ => false
end

def TableAlias.alike (a b : TableAlias) : Bool := a.name.value = b.name.value && a.columns.length = b.columns.length

def JoinConstraint.alike : JoinConstraint → JoinConstraint → Bool
  | .on e, .on e' => e.alike e'
  | .using ns, .using ns' => ns.isEqv ns' ObjectName.requoted
  | .natural, .natural | .none, .none => true
  | _, _ => false

def JoinOperator.alike : JoinOperator → JoinOperator → Bool
  | .asOf e, .asOf e' => e.alike e'
  | .asOf _, _ | _, .asOf _ => false
  | o, o' => o.ctorIdx = o'.ctorIdx

def JoinHead.alike (h h' : JoinHead) : Bool :=
  h.global = h'.global && h.operator.alike h'.operator && h.constraint.alike h'.constraint

section
-- Whether a place of one text is that of the same word in another text.
variable (places : Location → Location → Bool)

def TableReference.alike (t t' : TableReference) : Bool :=
  t.name.requoted t'.name && places t.start t'.start && t.arguments.isSome = t'.arguments.isSome &&
    match t.asName, t'.asName with
    | none, none => true
    | some a, some a' => a.alike a'
    | _, _ => false

mutual
def TableFactor.alike : TableFactor → TableFactor → Bool
  | .table t, .table t' => t.alike places t'
  | .nested relation joins a, .nested relation' joins' a' =>
    relation.alike relation' && Join.allAlike joins joins' && a.isSome = a'.isSome
  | .phrase _, .phrase _ => true
  | _, _ => false
def Join.allAlike : List Join → List Join → Bool
  | [], [] => true
  | .mk head right :: joins, .mk head' right' :: joins' =>
    head.alike head' && right.alike right' && Join.allAlike joins joins'
  | _, _ => false
end

def FromEntry.alike (e e' : FromEntry) : Bool := e.relation.alike places e'.relation && Join.allAlike places e.joins e'.joins

def QueryBody.alike : QueryBody → QueryBody → Bool
  | .select entries, .select entries' => entries.isEqv entries' (FromEntry.alike places)
  | .parenthesised, .parenthesised | .other _, .other _ => true
  | _, _ => false

def Statement.alike : Statement → Statement → Bool
  | .query q, .query q' => q.body.alike places q'.body
  | .command, .command | .explanation, .explanation => true
  | _, _ => false

end

-- The names of all tables in its FROM clause.

def FromEntry.tableNames (e : FromEntry) : List ObjectName :=
  (e.relation.references ++ Join.allReferences e.joins).map TableReference.name

def Statement.tableNames : Statement → List ObjectName
  | .query ⟨_,_,.select entries⟩ => entries.flatMap FromEntry.tableNames
  | _ => []

end Sql

-- Names.

section
variable {places : Location → Location → Bool}

mutual
theorem Sql.TableFactor.references_alike (f f' : TableFactor) (same : f.alike places f' = true) :
    List.Forall₂ (fun t t' => t.alike places t' = true) f.references f'.references := by
  cases f with
  | table t =>
    cases f' with
    | table t' => exact .cons same .nil
    | _ => cases same
  | nested relation joins asName =>
    cases f' with
    | nested relation' joins' asName' =>
      simp only [TableFactor.alike,Bool.and_eq_true] at same
      exact List.rel_append (TableFactor.references_alike relation relation' same.1.1) (Join.allReferences_alike joins joins' same.1.2)
    | _ => cases same
  | phrase p =>
    cases f' with
    | phrase p' => exact .nil
    | _ => cases same
theorem Sql.Join.allReferences_alike (joins joins' : List Join) (same : Join.allAlike places joins joins' = true) :
    List.Forall₂ (fun t t' => t.alike places t' = true) (Join.allReferences joins) (Join.allReferences joins') := by
  cases joins with
  | nil =>
    cases joins' with
    | nil => exact .nil
    | cons => cases same
  | cons j joins =>
    cases joins' with
    | nil =>
      cases j
      cases same
    | cons j' joins' =>
      obtain ⟨head,factor⟩ := j
      obtain ⟨head',factor'⟩ := j'
      simp only [Join.allAlike,Bool.and_eq_true] at same
      exact List.rel_append (TableFactor.references_alike factor factor' same.1.2)
        (Join.allReferences_alike joins joins' same.2)
end

theorem Sql.FromEntry.tableNames_alike {e e' : FromEntry} (same : e.alike places e' = true) :
    List.Forall₂ (fun n n' => ObjectName.requoted n n' = true) e.tableNames e'.tableNames := by
  simp only [FromEntry.alike,Bool.and_eq_true] at same
  have references := List.rel_append (TableFactor.references_alike e.relation e'.relation same.1)
    (Join.allReferences_alike e.joins e'.joins same.2)
  refine List.forall₂_map_left_iff.mpr (List.forall₂_map_right_iff.mpr (references.imp fun t t' alike => ?_))
  simp only [TableReference.alike,Bool.and_eq_true] at alike
  exact alike.1.1.1

theorem Sql.FromEntry.allTableNames_alike {es es' : List FromEntry} (same : es.isEqv es' (FromEntry.alike places) = true) :
    List.Forall₂ (fun n n' => ObjectName.requoted n n' = true) (es.flatMap FromEntry.tableNames) (es'.flatMap FromEntry.tableNames) := by
  induction es generalizing es' with
  | nil =>
    cases es' with
    | nil => exact .nil
    | cons => cases same
  | cons e es ih =>
    cases es' with
    | nil => cases same
    | cons e' es' =>
      simp only [List.isEqv,Bool.and_eq_true] at same
      exact List.rel_append (tableNames_alike same.1) (ih same.2)

theorem Sql.Statement.tableNames_alike {s s' : Statement} (same : s.alike places s' = true) :
    List.Forall₂ (fun n n' => ObjectName.requoted n n' = true) s.tableNames s'.tableNames := by
  cases s with
  | command | explanation => cases s' with | query => cases same | _ => exact .nil
  | query q =>
    cases s' with
    | command | explanation => cases same
    | query q' =>
      obtain ⟨_,_,body⟩ := q
      obtain ⟨_,_,body'⟩ := q'
      cases body with
      | parenthesised | other => cases body' with | select => cases same | _ => exact .nil
      | select es =>
        cases body' with
        | parenthesised | other => cases same
        | select es' => exact FromEntry.allTableNames_alike same

end

-- Expressions.

-- A call that has no part but those that a node has a place for or that are not looked at.
def Sql.CallHead.isPlain (h : CallHead) : Bool :=
  h.window.isNone && h.filter.isNone && h.withinGroup.isNone &&
    match h.form with
    | .bare => true
    | .subquery _ => false
    | .arguments => h.duplicates.isNone && h.clauses.isEmpty

namespace Node

end Node

-- Clauses.

-- The same clause but for the quotes of names.
structure JoinClause.Alike (c c' : JoinClause) : Prop where
  spec : c'.spec = c.spec
  condition : Option.Rel (fun e e' => Expr.alike e e' = true) c.condition c'.condition
  columns : c'.columns.map (·.map Ident.value) = c.columns.map (·.map Ident.value)

namespace JoinClause

end JoinClause

namespace JoinHint

-- The words that are put back have nothing to do with a condition or columns.
section
variable (h : JoinHint) (x : Option Expr) (y : Option (List Ident))

end

end JoinHint

-- The words taken out of the joins of two texts are the same at the places of one word.
def JoinHints.Agree (places : Location → Location → Bool) (hs hs' : JoinHints) : Prop :=
  ∀ l l', places l l' = true → hs'.lookup l' = hs.lookup l

namespace Node

-- Trees.

-- A tree without the names of its tables.
def unnamed : Node → Node
  | .table _ asName => .table "" asName
  | .join s l r e => .join s l.unnamed r.unnamed e
  | n => n

def tableNames : Node → List String
  | .table name _ => [name]
  | .join _ l r _ => l.tableNames ++ r.tableNames
  | _ => []

section
variable {places : Location → Location → Bool}

variable {hs hs' : JoinHints} (agree : JoinHints.Agree places hs hs')
include agree

end

-- The tables of a tree are those of its FROM clause from left to right.

end Node

end JoinTree
