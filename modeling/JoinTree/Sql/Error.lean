import JoinTree.Clause.Kind
import JoinTree.Sql.Grammar.Statement

namespace JoinTree.Sql

-- Why a join has no clause that a join tree can hold.
inductive JoinFault where
  | strictnessConflict (first second : Strictness)
  | localityConflict (first second : Locality)
  | pasteWith (kind : JoinKind)
  | asofConstraint (join : String)
  | natural (join : String)
  | operator (join : String)
  | computedColumn (name : String)
  | qualifiedColumn (name : String)
  deriving DecidableEq, Repr

def JoinFault.text : JoinFault → String
  | strictnessConflict a b => s!"conflicting join strictness {a.text} and {b.text}"
  | localityConflict a b => s!"conflicting join locality {a.text} and {b.text}"
  | pasteWith k => s!"PASTE combined with {k.text} join"
  | asofConstraint j => s!"ASOF join with USING or NATURAL constraint: {j}"
  | natural j => s!"NATURAL join is not supported: {j}"
  | operator j => j
  | computedColumn n => s!"USING column '{n}' is not an identifier"
  | qualifiedColumn n => s!"USING column '{n}' must not be qualified"

-- The text behind the first place where `pattern` stands.
def behindFirst (pattern : List Char) : List Char → Option (List Char)
  | [] => if pattern = [] then some [] else none
  | c :: cs => if pattern.isPrefixOf (c :: cs) then some ((c :: cs).drop pattern.length) else behindFirst pattern cs

-- The place that a message names. A message without one, or whose first such words have no number behind them, counts as
-- reported at line 0, column 0.
def reportedPlace (message : String) : Location :=
  let text := message.toList
  let place : Option Location := do
    let afterLine ← behindFirst "Line: ".toList text
    let lineText := afterLine.takeWhile (· ≠ ',')
    if lineText.length = afterLine.length then none
    let line ← Text.unsigned64? (Text.trimChars lineText)
    let afterColumn ← behindFirst "Column: ".toList text
    let column ← Text.unsigned64? (afterColumn.takeWhile Char.isDigit)
    return ⟨line, column⟩
  place.getD ⟨0, 0⟩

inductive Error where
  | unreadable (fault : SyntaxError)
  | wordOutsideText (place : Location)
  | empty
  | unknownDialect (name : String)
  | unsupportedJoin (fault : JoinFault)
  deriving DecidableEq, Repr

namespace Error

private def placed (message : String) (place : Location) : String :=
  s!"[S001] SQL parse error at line {place.line}, column {place.column}: {message}"

def message : Error → String
  | unreadable fault => placed fault.message (reportedPlace fault.message)
  | wordOutsideText place => placed "join keyword outside the SQL text" place
  | empty => "[S002] SQL is empty"
  | unknownDialect name => s!"[S004] Unknown SQL dialect: {name}"
  | unsupportedJoin fault => s!"[S005] Unsupported join: {fault.text}"

end Error

-- A dialect by its name, in any letter case.
def Dialect.named (name : String) : Except Error Dialect :=
  match Dialect.ofName? name with
  | some d => .ok d
  | none => .error (.unknownDialect name)

def nonEmpty (sql : String) : Except Error String :=
  let sql := Text.trim sql
  if sql.isEmpty then .error .empty else .ok sql

-- All statements of a text.
def parse (d : Dialect) (sql : String) : Except Error (List Statement) := do
  (Statement.readAll d (← nonEmpty sql)).mapError .unreadable

def firstOf (statements : List Statement) : Except Error Statement :=
  match statements.head? with
  | some s => .ok s
  | none => .error .empty

def parseFirst (d : Dialect) (sql : String) : Except Error Statement := do firstOf (← parse d sql)

-- The expression that a text starts with.
def parseExpr (d : Dialect) (sql : String) : Except Error Expr := do
  (Expr.read d (← nonEmpty sql)).mapError .unreadable

end JoinTree.Sql
