import JoinTree.Sql.Grammar.Query

/-!
Statements. A statement that is no query has to be complete, but nothing of it is kept.
-/

namespace JoinTree.Sql

namespace Reading

private def names (g : Grammar) : Reading Unit := discard (list (nameText g))
private def columnNames : Reading Unit := discard (parenthesised (list ident))
private def optional (k : Keyword) : Reading Unit := discard (keyword? k)
private def following (ks : List Keyword) (p : Reading Unit) : Reading Unit := do if ← keywords? ks then p

-- Changes of tables.

private def truncation (g : Grammar) : Reading Unit := do
  optional .TABLE
  following [.IF, .EXISTS] (pure ())
  names g
  following [.PARTITION] (discard (parenthesised (exprTexts g)))

private def removal (g : Grammar) : Reading Unit := do
  if g.dialect.isGeneric then optional .TEMPORARY
  unless ← keywords? [.MATERIALIZED, .VIEW] do
    if (← oneOf? [.TABLE, .VIEW, .INDEX, .SCHEMA, .DATABASE, .TYPE, .USER]).isNone then
      expected ("DATABASE, EXTENSION, FUNCTION, INDEX, OPERATOR, POLICY, PROCEDURE, ROLE, SCHEMA, SECRET, SEQUENCE, " ++
        "STAGE, TABLE, TRIGGER, TYPE, VIEW, MATERIALIZED VIEW or USER after DROP")
  following [.IF, .EXISTS] (pure ())
  names g
  let place ← place?
  let cascade ← keyword? .CASCADE
  let restrict ← keyword? .RESTRICT
  optional .PURGE
  if cascade && restrict then throw (.refused "Cannot specify both CASCADE and RESTRICT in DROP" place)

private def columnOrKey (g : Grammar) : Reading Unit := do
  if (← firstOf [worded? [.PRIMARY, .KEY] (pure ""), worded? [.UNIQUE] (pure "")]).isSome then columnNames
  else
    match ← token? with
    | some (.word ..) => discard (column g (typeText g))
    | _ => expected "column name or constraint definition"
  unless (← symbolAhead .comma) || (← symbolAhead .rparen) do expected "',' or ')' after column definition"

private def tableDefinition (g : Grammar) : Reading Unit := do
  following [.IF, .NOT, .EXISTS] (pure ())
  discard (nameText g)
  if ← symbolAhead .lparen then parenthesised (discard (listBefore .rparen (columnOrKey g)))
  following [.ENGINE] do
    discard (symbol? .eq)
    discard ident
    if ← symbolAhead .lparen then parenthesised (discard (listBefore .rparen g.expr))
  unless g.dialect.isSnowflake do following [.PRIMARY, .KEY] (discard g.expr)
  following [.ORDER, .BY] do
    if ← symbolAhead .lparen then parenthesised (discard (listBefore .rparen g.expr)) else discard g.expr
  following [.AS] (discard g.query)

private def creation (g : Grammar) : Reading Unit := do
  following [.OR, .REPLACE] (pure ())
  discard (oneOf? [.TEMPORARY, .TEMP])
  if ← keyword? .TABLE then tableDefinition g
  else if (← firstOf [worded? [.MATERIALIZED, .VIEW] (pure ""), worded? [.VIEW] (pure "")]).isSome then
    following [.IF, .NOT, .EXISTS] (pure ())
    discard (nameText g)
    if ← symbolAhead .lparen then columnNames
    keyword .AS
    discard g.query
  else if (← oneOf? [.DATABASE, .SCHEMA]).isSome then
    following [.IF, .NOT, .EXISTS] (pure ())
    discard (nameText g)
  else expected "an object type after CREATE"

-- Statements.

-- The words are names, up to the first token that is none.
private def showing : Reading Unit :=
  iterate (fun _ => do
    match ← token? with
    | some (.word ..) => skip; return some ()
    | _ => return none) ()

-- What follows the first word of a statement that is no query. `inner` reads a statement within a statement.
private def command? (g : Grammar) (inner : Reading Statement) : Keyword → Option (Reading Unit)
  | .TRUNCATE => some (truncation g)
  | .DROP => some (removal g)
  | .CREATE => some (creation g)
  | .USE => some (discard (nameText g))
  | .SHOW => some showing
  | .EXPLAIN | .DESCRIBE | .DESC => some do
    optional .ANALYZE
    match ← attempt inner with
    | some .explanation => throw (.refused "Explain must be root of the plan" none)
    | some _ => return
    | none =>
      optional .TABLE
      discard (nameText g)
  | _ => none

private def isExplanation (k : Keyword) : Bool := [Keyword.EXPLAIN, .DESCRIBE, .DESC].contains k

-- The body of a statement.
def statementOf (g : Grammar) (inner : Reading Statement) : Reading Statement := do
  match ← token? with
  | some (.symbol .lparen) => .query <$> g.query
  | some (.word _ _ (some k)) =>
    if [Keyword.SELECT, .WITH, .VALUES, .FROM].contains k then .query <$> g.query
    else if (← change? g).isSome then return .command
    else match command? g inner k with
      | some rest => do
        skip
        rest
        return if isExplanation k then .explanation else .command
      | none => expected "an SQL statement"
  | _ => expected "an SQL statement"

def semicolons : Reading Bool :=
  iterate (fun _ => do if ← symbol? .semicolon then return some true else return none) false

-- Statements with a semicolon between any two. The word END ends a text behind a statement.
def statementsWithin (statement : Reading Statement) : (n : Nat) → (behind : Bool) → Reading (List Statement)
  | 0, _ => return []
  | n + 1, behind => do
    let behind := behind && !(← semicolons)
    match ← token? with
    | none => return []
    | some t =>
      if behind then
        if t.keyword? = some .END then return [] else expected "end of statement"
      let s ← statement
      return s :: (← statementsWithin statement n true)

def statements (statement : Reading Statement) : Reading (List Statement) := fun ls =>
  statementsWithin statement (ls.length + 1) false ls

-- A statement takes a level of nesting of its own.
def statementAt (d : Dialect) : (levels : Nat) → Reading Statement
  | 0 => throw .tooDeep
  | n + 1 => statementOf (Grammar.within d n) (statementAt d n)

end Reading

-- All statements of a text.
def Statement.readAll (d : Dialect) (sql : String) : Except SyntaxError (List Statement) := do
  let ls ← (Token.scan d sql.toList).mapError fun (fault, place) => .lexical fault place
  Prod.fst <$> Reading.statements (Reading.statementAt d Grammar.maxLevels) ls

-- The expression that a text starts with.
def Expr.read (d : Dialect) (sql : String) : Except SyntaxError Expr := do
  let ls ← (Token.scan d sql.toList).mapError fun (fault, place) => .lexical fault place
  Prod.fst <$> Grammar.expression d ls

end JoinTree.Sql
