import JoinTree.Sql.Dialect
import JoinTree.Sql.Reading
import JoinTree.Sql.Relation
import JoinTree.Text.Digits

/-!
What the parts of the grammar share: the readings that may nest in each other, the words that cannot be a name where a
name would be taken for something else, lists, and names.
-/

namespace JoinTree.Sql

-- What an expression is part of. Inside of CONNECT BY the word PRIOR is an operator, and inside of the options of a
-- column NOT NULL and COLLATE are options.
inductive Mode where
  | plain | hierarchy | column
  deriving DecidableEq, Repr

-- The readings that nest in each other. Each takes one level of the nesting that is left.
structure Grammar where
  dialect : Dialect
  mode : Mode := .plain
  -- An expression up to the first operator that does not bind tighter than the given level.
  operandIn : Mode → (level : Nat) → Reading Expr
  queryIn : Mode → Reading Query
  factorIn : Mode → Reading TableFactor

namespace Grammar

def tooDeep (d : Dialect) : Grammar :=
  { dialect := d, operandIn := fun _ _ => throw .tooDeep, queryIn := fun _ => throw .tooDeep,
    factorIn := fun _ => throw .tooDeep }

def inMode (g : Grammar) (m : Mode) : Grammar := { g with mode := m }
def operand (g : Grammar) (level : Nat) : Reading Expr := g.operandIn g.mode level
def expr (g : Grammar) : Reading Expr := g.operand 0
def exprText (g : Grammar) : Reading String := Expr.text <$> g.expr
def query (g : Grammar) : Reading Query := g.queryIn g.mode
def factor (g : Grammar) : Reading TableFactor := g.factorIn g.mode

end Grammar

namespace Keyword

def isColumnClause (k : Keyword) : Bool := [
  .WITH, .EXPLAIN, .ANALYZE, .SELECT, .WHERE, .GROUP, .SORT, .HAVING, .ORDER, .TOP, .LATERAL, .VIEW, .LIMIT, .OFFSET,
  .FETCH, .UNION, .EXCEPT, .EXCLUDE, .INTERSECT, .MINUS, .CLUSTER, .DISTRIBUTE, .RETURNING, .VALUES, .FROM, .INTO,
  .END].contains k

def isTableClause (k : Keyword) : Bool := [
  .WITH, .EXPLAIN, .ANALYZE, .SELECT, .WHERE, .GROUP, .SORT, .HAVING, .ORDER, .PIVOT, .UNPIVOT, .TOP, .LATERAL, .VIEW,
  .LIMIT, .OFFSET, .FETCH, .UNION, .EXCEPT, .INTERSECT, .MINUS, .ON, .JOIN, .INNER, .CROSS, .FULL, .LEFT, .RIGHT,
  .NATURAL, .USING, .CLUSTER, .DISTRIBUTE, .GLOBAL, .ANTI, .SEMI, .RETURNING, .ASOF, .MATCH_CONDITION, .OUTER, .SET,
  .QUALIFY, .WINDOW, .END, .FOR, .PARTITION, .PREWHERE, .SETTINGS, .FORMAT, .START, .CONNECT, .MATCH_RECOGNIZE,
  .SAMPLE, .TABLESAMPLE, .FROM, .OPEN, .STRAIGHT_JOIN].contains k

-- The words that no Snowflake table may be called by, behind FROM or a comma.
def isTableOpener (k : Keyword) : Bool := !([
  .ALL, .ALTER, .AND, .ANY, .AS, .BETWEEN, .BY, .CHECK, .COLUMN, .CONNECT, .CREATE, .CROSS, .CURRENT, .DELETE,
  .DISTINCT, .DROP, .ELSE, .EXISTS, .FOLLOWING, .FOR, .FROM, .FULL, .GRANT, .GROUP, .HAVING, .ILIKE, .IN, .INCREMENT,
  .INNER, .INSERT, .INTERSECT, .INTO, .IS, .JOIN, .LEFT, .LIKE, .MINUS, .NATURAL, .NOT, .NULL, .OF, .ON, .OR, .ORDER,
  .QUALIFY, .REGEXP, .REVOKE, .RIGHT, .RLIKE, .ROW, .ROWS, .SAMPLE, .SELECT, .SET, .SOME, .START, .TABLE, .TABLESAMPLE,
  .THEN, .TO, .TRIGGER, .UNION, .UNIQUE, .UPDATE, .USING, .VALUES, .WHEN, .WHENEVER, .WHERE, .WITH].contains k)

end Keyword

namespace Reading

-- Lists.

-- Whether nothing but the end of a list follows its last comma. `stops` tells a word that can only come behind the list.
def endsAfterComma (stops : Keyword → List Lexeme → Bool) (ls : List Lexeme) : Bool :=
  match ls with
  | [] => true
  | l :: rest =>
    match l.token with
    | .word _ _ (some k) => stops k rest
    | .symbol s => [.rparen, .semicolon, .rbracket, .rbrace].contains s
    | _ => false

def exprTexts (g : Grammar) : Reading String := texts g.exprText

-- Names.

def ofIdentToken : Token → Option Ident
  | .word v q _ => some ⟨v, q⟩
  | .string s => some ⟨s, some '\''⟩
  | _ => none

def ident : Reading Ident := tokenOf "identifier" ofIdentToken

-- An expression, a star, or the star of one table. `(*)` is a star as well.
def exprOrStar (g : Grammar) : Reading Expr := fun ls =>
  match ls with
  | ⟨.symbol .mul, _, _, _⟩ :: rest => .ok (.argument "*", rest)
  | l :: ⟨.symbol .period, start, stop, gap⟩ :: rest =>
    match ofIdentToken l.token with
    | some i =>
      match path [i] (⟨.symbol .period, start, stop, gap⟩ :: rest) with
      | .error failure => .error failure
      | .ok (some text, rest) => .ok (.argument text, rest)
      | .ok (none, _) => g.expr ls
    | none => g.expr ls
  | ls =>
    if (ls.take 3).map (·.token) = [.symbol .lparen, .symbol .mul, .symbol .rparen] then .ok (.argument "*", ls.drop 3)
    else g.expr ls
where
  -- The dotted names before a star, if a star ends them.
  path (parts : List Ident) : List Lexeme → Except SyntaxError (Option String × List Lexeme)
    | ⟨.symbol .period, _, _, _⟩ :: l :: rest =>
      match l.token with
      | .symbol .mul => .ok (some ((ObjectName.ofIdents parts).text ++ ".*"), rest)
      | .placeholder s => path (parts ++ [⟨s, none⟩]) rest
      | t =>
        match ofIdentToken t with
        | some i => path (parts ++ [i]) rest
        | none => .error (.expected "an identifier or a '*' after '.'" (some l))
    | [⟨.symbol .period, _, _, _⟩] => .error (.expected "an identifier or a '*' after '.'" none)
    | ls => .ok (none, ls)

-- A call argument: a plain expression, a star, or a value with the name of its parameter.
def argument (g : Grammar) : Reading Expr := do
  let named : Reading Expr := do
    let name ← ident
    let op ←
      if ← keyword? .VALUE then pure "VALUE"
      else tokenOf "argument operator" fun
        | .symbol .fatArrow => some "=>"
        | .symbol .assignment => if g.dialect.hasAssignmentArguments then some ":=" else none
        | _ => none
    let value ← exprOrStar g
    pure (.argument s!"{name.text} {op} {value.text}")
  match ← attempt named with
  | some e => pure e
  | none => exprOrStar g

def argumentsBefore (g : Grammar) : Reading String :=
  return commaSeparated ((← listBefore .rparen (argument g)).map Expr.text)

def generatesNames (d : Dialect) (i : Ident) (before : List NamePart) : Bool :=
  d.isSnowflake && i.quote.isNone && Text.lower i.value = "identifier" &&
    before.all fun | .generated _ => false | .ident _ => true

-- A dotted name. In Snowflake `db..t` leaves a part out, and a part can be computed by a function.
def objectName (g : Grammar) : Reading ObjectName := fun ls => go (ls.length + 1) [] ls
where
  part (before : List NamePart) : Reading NamePart := do
    if g.dialect.isSnowflake && before.length = 1 && (← symbolAhead .period) then return .ident ⟨"", none⟩
    let i ← ident
    if generatesNames g.dialect i before then
      return .generated s!"{i.text}({← parenthesised (argumentsBefore g)})"
    return .ident i
  go : Nat → List NamePart → Reading ObjectName
    | 0, parts => pure ⟨parts⟩
    | n + 1, parts => do
      let parts := parts ++ [← part parts]
      if ← symbol? .period then go n parts else pure ⟨parts⟩

def identText : Reading String := Ident.text <$> ident
def nameText (g : Grammar) : Reading String := ObjectName.text <$> objectName g

-- Columns in parentheses.
def parenthesisedList (item : Reading α) : Reading (List α) := do
  if ← symbolAhead .lparen then parenthesised (list item) else expected "a list of columns in parentheses"

def optionalColumns : Reading String := do
  if ← symbolAhead .lparen then return s!" ({← parenthesised (texts identText)})" else return ""

end Reading

end JoinTree.Sql
