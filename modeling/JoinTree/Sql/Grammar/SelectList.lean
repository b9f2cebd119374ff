import JoinTree.Sql.Grammar.Alias
import JoinTree.Sql.Grammar.Expr

/-!
The items of a select list.
-/

namespace JoinTree.Sql.Reading

def like (d : Dialect) : Reading String := do
  if !(← provided (!d.isClickHouse) (keyword? .ILIKE)) then return ""
  let pattern ← tokenOf "ilike pattern" fun | .string s => some s | _ => none
  return " ILIKE " ++ quotedText '\'' pattern

-- One item, or several in parentheses.
private def oneOrMore (item : Reading String) : Reading String := do
  if ← symbolAhead .lparen then return s!"({← parenthesised (texts item)})" else item

private def except : Reading String := do
  if ← symbolAhead .lparen then return s!" EXCEPT ({← parenthesised (texts identText)})"
  return s!" EXCEPT ({← identText})"

private def replaced (g : Grammar) : Reading String := do
  if !(← symbolAhead .lparen) then expected "( after REPLACE but"
  let items ← parenthesised (texts do
    let e ← g.exprText
    let between := if ← keyword? .AS then " AS " else " "
    return s!"{e}{between}{← identText}")
  return s!" REPLACE ({items})"

-- A name and another one for it.
def renamed : Reading String := do
  let old ← identText
  let _ ← keyword? .AS
  return s!"{old} AS {← identText}"

-- What a star in a select list may be followed by.
def starOptions (g : Grammar) : Reading String := do
  let d := g.dialect
  let like ← like d
  let exclude ← if !d.isClickHouse && like = "" then textAfter .EXCLUDE (oneOrMore identText) else pure ""
  let except ← if ← provided (!d.isSnowflake) (keyword? .EXCEPT) then except else pure ""
  let replaced ← if ← keyword? .REPLACE then replaced g else pure ""
  let renamed ← if d.isClickHouse then pure "" else textAfter .RENAME (oneOrMore renamed)
  return like ++ exclude ++ except ++ replaced ++ renamed

-- In Snowflake a word in front of the item tells that it comes from the root of a hierarchy.
def selectItem (g : Grammar) : Reading String := do
  let fromRoot ← provided g.dialect.isSnowflake (keyword? .CONNECT_BY_ROOT)
  let named (text : String) : Reading String := do
    let name ← alias? g.dialect.isColumnAlias
    return (if fromRoot then "CONNECT_BY_ROOT " else "") ++ text ++ (name.map fun i => s!" AS {i.text}").getD ""
  match ← exprOrStar g with
  | .argument s => return s ++ (← starOptions g)
  | .ident ⟨v, none⟩ =>
    if Text.lower v = "from" then throw (.emptyProjection v (← place?))
    if ← star then return s!"{v}.*{← starOptions g}" else named v
  | e => if ← star then return s!"{e.text}.*{← starOptions g}" else named e.text
where
  star : Reading Bool := provided g.dialect.isSnowflake (symbols? [.period, .mul])

def selectItems (g : Grammar) : Reading String := texts (selectItem g)

private def endsItems (d : Dialect) (k : Keyword) (rest : List Lexeme) : Bool := !d.isColumnAlias k rest

-- The items between SELECT and FROM.
def projection (g : Grammar) : Reading String :=
  let d := g.dialect
  let closes (ls : List Lexeme) : Bool := d.hasTrailingProjectionCommas && endsAfterComma (endsItems d) ls
  return commaSeparated (← separated closes (selectItem g))

end JoinTree.Sql.Reading
