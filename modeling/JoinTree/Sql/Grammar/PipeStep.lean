import JoinTree.Sql.Grammar.Change
import JoinTree.Sql.Grammar.SetOperation

/-!
Steps behind a query, each of which works on the rows that the one before gives.
-/

namespace JoinTree.Sql.Reading

private def stepWords : List Keyword := [
  .SELECT, .EXTEND, .SET, .DROP, .AS, .WHERE, .LIMIT, .AGGREGATE, .ORDER, .TABLESAMPLE, .RENAME, .UNION, .INTERSECT,
  .EXCEPT, .CALL, .PIVOT, .UNPIVOT, .JOIN, .INNER, .LEFT, .RIGHT, .FULL, .CROSS]

-- Behind such a step any name is an alias.
private def stepAlias : Reading String := do
  let name ← if ← keyword? .AS then some <$> identText else attempt identText
  return (name.map (" AS " ++ ·)).getD ""

private def aggregateItem (g : Grammar) : Reading String := do
  let e ← g.exprText
  let name ← alias? fun k _ => !([.ASC, .DESC, .GROUP].contains k)
  return e ++ (name.map fun i => s!" AS {i.text}").getD "" ++ (← direction)

private def aggregation (g : Grammar) : Reading String := do
  let items ← if ← isAhead .GROUP then pure "" else do pure (" " ++ (← texts (aggregateItem g)))
  return s!"AGGREGATE{items}{← clause [.GROUP, .BY] (texts (aggregateItem g))}"

private def combined (g : Grammar) (k : Keyword) : Reading String := do
  let quantifier ← setQuantifier
  let required := k ≠ .UNION
  if required && !(quantifier.any (·.startsWith "DISTINCT")) then
    throw (.refused s!"{k.text} pipe operator requires DISTINCT modifier" none)
  let queries ← texts (return s!"({(← parenthesised g.query).text})")
  return s!"{k.text}{spaced quantifier} {queries}"

private def calling (g : Grammar) : Reading String := do
  let name ← objectName g
  let call ← callOf g (interval g) name
  return s!"CALL {call.text}{← stepAlias}"

private def pivoting (g : Grammar) : Reading String := do
  let inside ← parenthesised do
    let aggregates ← aggregates g
    keyword .FOR
    let column ← iterate (fun text => do
      if ← symbol? .period then return some s!"{text}.{← identText}" else return none) (← identText)
    keyword .IN
    return s!"{aggregates} FOR {column} IN {← pivotValues g}"
  return s!"PIVOT({inside}){← stepAlias}"

private def unpivoting : Reading String := do
  let inside ← parenthesised do
    let value ← identText
    keyword .FOR
    let name ← identText
    keyword .IN
    return s!"{value} FOR {name} IN ({← parenthesised (texts identText)})"
  return s!"UNPIVOT({inside}){← stepAlias}"

-- The joins of a step start with the step's own word.
private def joining (g : Grammar) (step : List Lexeme) : Reading String := do
  set step
  match ← joins g with
  | [j] => return j.text
  | _ => throw (.refused "Join pipe operator must have a single join" none)

private def pipeStep (g : Grammar) : Reading String := do
  let step ← get
  let k ← oneOf stepWords
  let worded (p : Reading String) : Reading String := return s!"{k.text} {← p}"
  match k with
  | .SELECT | .EXTEND => worded (selectItems g)
  | .SET => worded (assignments g)
  | .DROP => worded (texts identText)
  | .AS => worded identText
  | .WHERE => worded g.exprText
  | .LIMIT => worded do
    let amount ← g.exprText
    return amount ++ (← textAfter .OFFSET g.exprText)
  | .AGGREGATE => aggregation g
  | .ORDER =>
    let _ ← oneOf [.BY]
    return s!"ORDER BY {← sortKeys g}"
  | .TABLESAMPLE => return s!"TABLESAMPLE{← sampleOf g}"
  | .RENAME => worded (texts renamed)
  | .UNION | .INTERSECT | .EXCEPT => combined g k
  | .CALL => calling g
  | .PIVOT => pivoting g
  | .UNPIVOT => unpivoting
  | _ => joining g step

-- All steps behind a query.
def pipeSteps (g : Grammar) : Reading String := do
  if !g.dialect.hasPipeSteps then return ""
  iterate (fun text => do
    if ← symbol? .pipeGt then return some s!"{text} |> {← pipeStep g}" else return none) ""

end JoinTree.Sql.Reading
