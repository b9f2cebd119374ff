import JoinTree.Clause.Extraction
import JoinTree.Note
import JoinTree.Tree.OfExpr

/-!
The join tree of a FROM clause. Entries and joins nest to the left, in the order of the text. No join is built from a
clause with a defect.
-/

namespace JoinTree

open Sql

def JoinClause.spec (c : JoinClause) : JoinSpec := ⟨c.locality, c.strictness, c.kind⟩

def JoinSpec.text (s : JoinSpec) : String := s!"{s.locality.text} {s.strictness.text} {s.kind.text}"

def JoinSpec.note (s : JoinSpec) : Note := ⟨.debug, s!"Building {s.text} join"⟩

-- The clause of a join with the words back that were taken out of it.
def JoinHints.clauseOf (hints : JoinHints) (j : Join) : Except JoinFault JoinClause := do
  let c ← JoinClause.ofJoin j
  match hints.ofJoin? j with
  | some h => h.apply c
  | none => return c

-- The hints of a text, as notes.
def PreparedText.notes (d : Dialect) (sql : List Char) : List Note :=
  (PreparedText.noted d sql).map fun r =>
    ⟨.trace, s!"Join keywords {r.hint.noteText} for relation at  at {r.key.text}"⟩

namespace Node

-- The join expression that a clause without defects asks for.
def constraintOf (c : JoinClause) : Except AnalysisError (Option Node) :=
  match c.columns, c.condition with
  | some columns, _ => .ok (some (list (columns.map fun i => ident i.value)))
  | none, some e => do return some (← ofExpr e)
  | none, none => .ok none

def joined (left right : Node) (c : JoinClause) : Noted AnalysisError Node := do
  match c.defect? with
  | some d => throw (.structural (.clause d))
  | none =>
    .note c.spec.note
    return join c.spec left right (← constraintOf c)

def ofTable (t : TableReference) : Except AnalysisError Node :=
  if t.arguments.isSome then .error (.unsupported (.tableFunction t.name.text))
  else match t.asName with
    | none => .ok (table t.name.text none)
    | some a =>
      if a.columns.isEmpty then .ok (table t.name.text (some a.name.value))
      else .error (.unsupported (.columnAliases t.name.text))

mutual
def ofFactor (hints : JoinHints) : TableFactor → Noted AnalysisError Node
  | .table t => ofTable t
  | .nested relation joins asName =>
    match asName with
    | some a => throw (.unsupported (.joinAlias a.name.text))
    | none => do ofJoins hints (← ofFactor hints relation) joins
  | f@(.phrase ..) => throw (.unsupported (.tableExpression f.text))
-- The tree of a table expression and the joins behind it.
def ofJoins (hints : JoinHints) (left : Node) : List Join → Noted AnalysisError Node
  | [] => pure left
  | .mk head factor :: joins => do
    let clause ← (hints.clauseOf (.mk head factor)).mapError fun fault => AnalysisError.sql (.unsupportedJoin fault)
    let right ← ofFactor hints factor
    ofJoins hints (← joined left right clause) joins
end

def ofEntry (hints : JoinHints) (e : FromEntry) : Noted AnalysisError Node := do
  ofJoins hints (← ofFactor hints e.relation) e.joins

-- A comma between two entries is a join.
def ofEntries (hints : JoinHints) : List FromEntry → Noted AnalysisError Node
  | [] => throw (.structural .noFrom)
  | e :: es => do
    es.foldlM (fun left e => do joined left (← ofEntry hints e) .comma) (← ofEntry hints e)

def ofQuery (q : Query) (hints : JoinHints) : Noted AnalysisError Node :=
  match q.body with
  | .select entries => ofEntries hints entries
  | .parenthesised => throw (.unsupported .parenthesisedBody)
  | .other text => throw (.unsupported (.queryBody text))

def ofStatement (s : Statement) (hints : JoinHints) : Noted AnalysisError Node :=
  match s with
  | .query q => ofQuery q hints
  | .command | .explanation => throw (.structural .notSelect)

end Node

namespace Sql

-- The first statement of a text and the words taken out of its joins.
def parseWithHints (d : Dialect) (sql : String) : Noted Error (Statement × JoinHints) := do
  let sql ← nonEmpty sql
  for n in PreparedText.notes d sql.toList do .note n
  let prepared ← PreparedText.ofText d sql.toList
  let statements ← (Statement.readAll d (.ofList prepared.sql)).mapError Error.unreadable
  return (← firstOf statements, prepared.hints)

end Sql

-- The tree of the FROM clause of a text.
def Node.ofSql (d : Dialect) (sql : String) : Noted AnalysisError Node := do
  let (s, hints) ← (parseWithHints d sql).mapError .sql
  ofStatement s hints

end JoinTree
