import JoinTree.Sql.Grammar.Join
import JoinTree.Sql.Grammar.Pivot
import JoinTree.Sql.Grammar.RowPattern
import JoinTree.Sql.Grammar.Sample
import JoinTree.Sql.Grammar.TableFunction

/-!
Table expressions.
-/

namespace JoinTree.Sql.Reading

-- Rows of values behind the word VALUES.
def valueRows (g : Grammar) : Reading String := do
  let rows ← list do
    let row ← keyword? .ROW
    return (row, s!"({← parenthesised (exprTexts g)})")
  let mark := if rows.any (·.1) then "ROW" else ""
  return commaSeparated (rows.map fun r => mark ++ r.2)

def version (g : Grammar) : Reading String := do
  if !g.dialect.isSnowflake then return ""
  if ← keywords? [.FOR, .SYSTEM_TIME, .AS, .OF] then return s!" FOR SYSTEM_TIME AS OF {← g.exprText}"
  if !(← anyAhead [.AT, .BEFORE]) then return ""
  let name ← objectName g
  return " " ++ (← callOf g (interval g) name).text

private def stage (g : Grammar) (start : Location) : Reading TableFactor := do
  let name ← stageName
  let arguments ← when? (← symbol? .lparen) (tableArguments g)
  return .table { name, start, arguments, asName := ← tableAlias? g }

-- A table by its name.
def namedTable (g : Grammar) (start : Location) : Reading TableFactor := do
  let name ← objectName g
  let path ← if ← provided g.dialect.hasPathAccess (symbolAhead .lbracket) then valuePath g else pure ""
  let partition ← do
    if ← provided g.dialect.isGeneric (keyword? .PARTITION) then
      pure s!"PARTITION ({← parenthesised (texts identText)})"
    else pure ""
  let version ← version g
  let arguments ← when? (← symbol? .lparen) (tableArguments g)
  let ordinality := if ← keywords? [.WITH, .ORDINALITY] then " WITH ORDINALITY" else ""
  let asName ← tableAlias? g
  let hints ← do
    if (← isAhead .WITH) && (← tokenAt? 1) = some (.symbol .lparen) then
      skip
      pure s!" WITH ({← parenthesised (exprTexts g)})"
    else pure ""
  let afterAlias := hints ++ version ++ (← sample g)
  rowMatched g (← pivoted g (.table ⟨name, start, path ++ partition, arguments, ordinality, asName, afterAlias⟩))

-- A query in parentheses, the opening one being read already.
def derivedTable (g : Grammar) (opening : String) : Reading TableFactor := do
  let q ← g.query
  symbol .rparen
  let asName ← tableAlias? g
  return .phrase ⟨s!"{opening}({q.text})", asName, ← sample g, q.start⟩

private def withAlias (outer : TableAlias) : TableFactor → Except TableAlias TableFactor
  | .table t => match t.asName with | some inner => .error inner | none => .ok (.table { t with asName := outer })
  | .nested r js a => match a with | some inner => .error inner | none => .ok (.nested r js outer)
  | .phrase p => match p.asName with | some inner => .error inner | none => .ok (.phrase { p with asName := outer })

-- What follows an opening parenthesis: a query, or a table expression.
def parenthesisedTable (g : Grammar) : Reading TableFactor := do
  if let some t ← attempt (derivedTable g "") then return ← pivoted g t
  let inner ← entry g
  match inner.relation, inner.joins with
  | .nested .., _ | _, _ :: _ =>
    symbol .rparen
    return .nested inner.relation inner.joins (← tableAlias? g)
  | relation, [] =>
    if !g.dialect.unwrapsParenthesisedTables then expected "joined table"
    symbol .rparen
    match ← tableAlias? g with
    | none => return relation
    | some outer =>
      match withAlias outer relation with
      | .ok r => return r
      | .error a => throw (.refused s!"duplicate alias {a.text}" none)

private def lateralTable (g : Grammar) : Reading TableFactor := do
  if ← symbol? .lparen then derivedTable g "LATERAL "
  else
    let name ← nameText g
    let arguments ← parenthesised (argumentsBefore g)
    return .phrase { text := s!"LATERAL {name}({arguments})", asName := ← tableAlias? g }

private def unnestedArrays (g : Grammar) : Reading TableFactor := do
  let arrays ← parenthesised (exprTexts g)
  let ordinality := if ← keywords? [.WITH, .ORDINALITY] then " WITH ORDINALITY" else ""
  let asName ← tableAlias? g
  let afterAlias ← do
    if ← provided (← keyword? .WITH) (keyword? .OFFSET) then
      let name ← alias? fun k _ => !k.isColumnClause
      pure (" WITH OFFSET" ++ (name.map fun i => s!" AS {i.text}").getD "")
    else pure ""
  return .phrase { text := s!"UNNEST({arrays}){ordinality}", asName, afterAlias }

-- The body of `Grammar.factor`.
def factorOf (g : Grammar) : Reading TableFactor := do
  let d := g.dialect
  let start := (← place?).getD .start
  if ← keyword? .LATERAL then lateralTable g
  else if ← keyword? .TABLE then
    let e ← parenthesised g.exprText
    return .phrase { text := s!"TABLE({e})", asName := ← tableAlias? g }
  else if ← symbol? .lparen then parenthesisedTable g
  else if d.hasBareValuesTable && (← isAhead .VALUES) && (← tokenAt? 1) = some (.symbol .lparen) then
    skip
    let rows ← valueRows g
    return .phrase { text := s!"(VALUES {rows})", asName := ← tableAlias? g }
  else if ← provided d.isGeneric (keyword? .UNNEST) then unnestedArrays g
  else
    match ← tableFunction? g with
    | some text => return .phrase { text, asName := ← tableAlias? g }
    | none => if ← symbolAhead .atSign then stage g start else namedTable g start

end JoinTree.Sql.Reading
