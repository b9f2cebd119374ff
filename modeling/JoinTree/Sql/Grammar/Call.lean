import JoinTree.Sql.Grammar.TypeName

/-!
Sort keys, windows, and calls with all that may follow their arguments.
-/

namespace JoinTree.Sql.Reading

-- Sort keys.

private def fill (g : Grammar) : Reading String := do
  if !(← provided (!g.dialect.isSnowflake) (keywords? [.WITH, .FILL])) then return ""
  let lower ← textAfter .FROM g.exprText
  let upper ← textAfter .TO g.exprText
  return " WITH FILL" ++ lower ++ upper ++ (← textAfter .STEP g.exprText)

def direction : Reading String := return match ← oneOf? [.ASC, .DESC] with | some k => " " ++ k.text | none => ""

def nullsOrder : Reading String := do
  if ← keywords? [.NULLS, .FIRST] then return " NULLS FIRST"
  if ← keywords? [.NULLS, .LAST] then return " NULLS LAST" else return ""

def sortKey (g : Grammar) : Reading String := do
  let e ← g.exprText
  let way ← direction
  let nulls ← nullsOrder
  return e ++ way ++ nulls ++ (← fill g)

def sortKeys (g : Grammar) : Reading String := texts (sortKey g)

-- Windows.

private def frameBound (g : Grammar) (interval : Reading Expr) : Reading String := do
  if ← keywords? [.CURRENT, .ROW] then return "CURRENT ROW"
  let rows ← do
    if ← keyword? .UNBOUNDED then pure "UNBOUNDED"
    else match ← token? with
      | some (.string _) => pure (← interval).text
      | _ => g.exprText
  match ← oneOf? [.PRECEDING, .FOLLOWING] with
  | some k => return s!"{rows} {k.text}"
  | none => expected "PRECEDING or FOLLOWING"

private def frame (g : Grammar) (interval : Reading Expr) : Reading String := do
  let some unit ← oneOf? [.ROWS, .RANGE, .GROUPS] | expected "ROWS, RANGE, GROUPS"
  if ← keyword? .BETWEEN then
    let low ← frameBound g interval
    keyword .AND
    return s!"{unit.text} BETWEEN {low} AND {← frameBound g interval}"
  return s!"{unit.text} {← frameBound g interval}"

-- The window between its parentheses. Only a free word names another window.
def window (g : Grammar) (interval : Reading Expr) : Reading String := do
  let name ← if (← token?).any Token.isFreeWord then List.singleton <$> identText else pure []
  let partition ← do
    if ← keywords? [.PARTITION, .BY] then pure ["PARTITION BY " ++ (← exprTexts g)] else pure []
  let order ← if ← keywords? [.ORDER, .BY] then pure ["ORDER BY " ++ (← sortKeys g)] else pure []
  let frame ← if ← symbolAhead .rparen then pure [] else pure [← frame g interval]
  return " ".intercalate (name ++ partition ++ order ++ frame)

-- Calls.

def jsonNulls : Reading (List String) := do
  if ← keywords? [.ABSENT, .ON, .NULL] then return ["ABSENT ON NULL"]
  if ← keywords? [.NULL, .ON, .NULL] then return ["NULL ON NULL"]
  return []

def jsonReturning (g : Grammar) : Reading (List String) :=
  return ((← after? .RETURNING (typeText g)).map fun t => s!"RETURNING {t}").toList

def nullTreatment : Reading (Option String) := do
  match ← oneOf? [.RESPECT, .IGNORE] with
  | some k => keyword .NULLS; return some s!"{k.text} NULLS"
  | none => return none

private def canFill : Token → Bool
  | .string _ => true
  | .marked s => s.mark ≠ .bytes && s.mark ≠ .raw
  | _ => false

def overflow (g : Grammar) : Reading (List String) := do
  if !(← keywords? [.ON, .OVERFLOW]) then return []
  if ← keyword? .ERROR then return ["ON OVERFLOW ERROR"]
  keyword .TRUNCATE
  let filler ← do
    if ← anyAhead [.WITH, .WITHOUT] then pure ""
    else if (← token?).any canFill then pure (" " ++ (← g.exprText))
    else expected "either filler, WITH, or WITHOUT in LISTAGG"
  let some k ← oneOf? [.WITH, .WITHOUT] | expected "either WITH or WITHOUT in LISTAGG"
  keyword .COUNT
  return [s!"ON OVERFLOW TRUNCATE{filler} {k.text} COUNT"]

structure Arguments where
  duplicates : Option String := none
  items : List Expr := []
  clauses : List String := []

-- What stands between the parentheses of a call, the opening one being read already.
def arguments (g : Grammar) : Reading Arguments := do
  let d := g.dialect
  let nulls ← jsonNulls
  let leading := nulls ++ (← jsonReturning g)
  if ← symbol? .rparen then return ⟨none, [], leading⟩
  let place ← place?
  let all ← keyword? .ALL
  let distinct ← keyword? .DISTINCT
  if all && distinct then throw (.refused "Cannot specify both ALL and DISTINCT" place)
  let items ← list (argument g)
  let nulls ← if d.hasNullTreatmentArgument then Option.toList <$> nullTreatment else pure []
  let order ← if ← keywords? [.ORDER, .BY] then pure ["ORDER BY " ++ (← sortKeys g)] else pure []
  let limit := ((← after? .LIMIT g.exprText).map fun e => s!"LIMIT {e}").toList
  let having ← do
    if ← provided d.isGeneric (keyword? .HAVING) then
      let k ← oneOf [.MIN, .MAX]
      pure [s!"HAVING {k.text} {← g.exprText}"]
    else pure []
  let separator ← do
    if ← provided d.isGeneric (keyword? .SEPARATOR) then pure [s!"SEPARATOR {← literalText}"] else pure []
  let overflowing ← overflow g
  let absent ← jsonNulls
  let returned ← jsonReturning g
  symbol .rparen
  let duplicates := if all then some "ALL" else if distinct then some "DISTINCT" else none
  let clauses := leading ++ nulls ++ order ++ limit ++ having ++ separator ++ overflowing ++ absent ++ returned
  return ⟨duplicates, items, clauses⟩

def Arguments.text (a : Arguments) : String :=
  CallHead.argumentText { name := ⟨[]⟩, duplicates := a.duplicates, clauses := a.clauses } (a.items.map Expr.text)

def isNullTreatment (clause : String) : Bool := clause = "IGNORE NULLS" || clause = "RESPECT NULLS"

def queryAhead : Reading Bool := anyAhead [.SELECT, .WITH]

-- A call behind its name.
def callOf (g : Grammar) (interval : Reading Expr) (name : ObjectName) : Reading Expr := do
  let d := g.dialect
  symbol .lparen
  if d.hasSubqueryArguments && (← queryAhead) then
    let q ← g.query
    symbol .rparen
    return .call { name, form := .subquery q.text } []
  let first ← arguments g
  let (parameters, args) ← do
    if ← provided d.hasParametricCalls (symbol? .lparen) then
      let second ← arguments g
      pure (some first.text, second)
    else pure (none, first)
  let withinGroup ← do
    if ← keywords? [.WITHIN, .GROUP] then
      some <$> parenthesised do keywords [.ORDER, .BY]; sortKeys g
    else pure none
  let filter ← do
    let opened := do provided (← provided (← keyword? .FILTER) (symbol? .lparen)) (keyword? .WHERE)
    if ← provided d.hasAggregateFilter opened then
      let e ← g.exprText
      symbol .rparen
      pure (some e)
    else pure none
  let nulls ← if args.clauses.any isNullTreatment then pure none else nullTreatment
  let window ← do
    if ← keyword? .OVER then
      if ← symbolAhead .lparen then some <$> parenthesised (return s!"({← window g interval})") else some <$> identText
    else pure none
  let head : CallHead := {
    name, parameters, duplicates := args.duplicates, clauses := args.clauses, withinGroup, filter, nulls, window }
  return .call head args.items

end JoinTree.Sql.Reading
