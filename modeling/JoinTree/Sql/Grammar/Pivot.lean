import JoinTree.Sql.Grammar.Alias
import JoinTree.Sql.Grammar.Expr

/-!
Tables with values turned into columns, and with columns turned into values.
-/

namespace JoinTree.Sql.Reading

-- A call with an alias. FOR cannot be the alias, since it comes next.
private def aggregate (g : Grammar) : Reading String := do
  match ← take? with
  | some ⟨.word v _ _, _, _, _⟩ =>
    let call ← callOf g (interval g) (.ofIdents [⟨v, none⟩])
    let name ← aliasUnless? (· = .FOR) g.dialect.isColumnAlias
    return call.text ++ (name.map fun i => s!" AS {i.text}").getD ""
  | _ => expected "a function identifier"

def aggregates (g : Grammar) : Reading String := texts (aggregate g)

private def values (g : Grammar) : Reading String := do
  if ← keyword? .ANY then return s!"ANY{← clause [.ORDER, .BY] (sortKeys g)}"
  if ← queryAhead then return (← g.query).text else texts (exprAs g)

-- The values that become columns, between parentheses.
def pivotValues (g : Grammar) : Reading String := return s!"({← parenthesised (values g)})"

private def pivotOf (g : Grammar) : Reading String := parenthesised do
  let aggregates ← aggregates g
  keyword .FOR
  let column : Reading String := Expr.text <$> g.operand BindingLevel.comparison
  let columns ← if ← symbolAhead .lparen then parenthesised (list column) else List.singleton <$> column
  keyword .IN
  let values ← pivotValues g
  let default ← do
    if ← keywords? [.DEFAULT, .ON, .NULL] then pure s!" DEFAULT ON NULL ({← parenthesised g.exprText})" else pure ""
  let columnText := match columns with
    | [c] => c
    | cs => s!"({commaSeparated cs})"
  return s!" PIVOT({aggregates} FOR {columnText} IN {values}{default})"

private def unpivotOf (g : Grammar) : Reading String := do
  let nulls ← match ← oneOf? [.INCLUDE, .EXCLUDE] with
    | some k => do keyword .NULLS; pure s!" {k.text} NULLS "
    | none => pure ""
  parenthesised do
    let value ← g.exprText
    keyword .FOR
    let name ← identText
    keyword .IN
    return s!" UNPIVOT{nulls}({value} FOR {name} IN ({commaSeparated (← parenthesisedList (exprAs g))}))"

-- A table with all that turns it around.
def pivoted (g : Grammar) (t : TableFactor) : Reading TableFactor :=
  iterate (fun t => do
    match ← oneOf? [.PIVOT, .UNPIVOT] with
    | none => return none
    | some k =>
      let text ← if k = .PIVOT then pivotOf g else unpivotOf g
      return some (.phrase { text := t.text ++ text, asName := ← tableAlias? g })) t

end JoinTree.Sql.Reading
