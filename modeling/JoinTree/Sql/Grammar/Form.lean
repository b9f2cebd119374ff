import JoinTree.Sql.Grammar.BindingLevel
import JoinTree.Sql.Grammar.Call
import JoinTree.Sql.Grammar.Interval

/-!
Expressions that a word opens and that are no plain calls. The word itself is read already.
-/

namespace JoinTree.Sql.Reading

private def caseOf (g : Grammar) : Reading String := do
  let operand ← do
    if ← keyword? .WHEN then pure ""
    else
      let e ← g.exprText
      keyword .WHEN
      pure s!" {e}"
  let branch : Reading String := do
    let condition ← g.exprText
    keyword .THEN
    return s!" WHEN {condition} THEN {← g.exprText}"
  let branches ← iterate (fun text => do
    if ← keyword? .WHEN then return some (text ++ (← branch)) else return none) (← branch)
  let default ← textAfter .ELSE g.exprText
  keyword .END
  return s!"CASE{operand}{branches}{default} END"

private def castOf (g : Grammar) (name : String) : Reading String := parenthesised do
  let e ← g.exprText
  keyword .AS
  let t ← typeText g
  let items := if ← keyword? .ARRAY then " ARRAY" else ""
  let format ← do
    if ← keyword? .FORMAT then
      let f ← literalText
      let zone ← if ← keywords? [.AT, .TIME, .ZONE] then do pure s!" AT TIME ZONE {← literalText}" else pure ""
      pure s!" FORMAT {f}{zone}"
    else pure ""
  return s!"{name}({e} AS {t}{items}{format})"

private def convertOf (g : Grammar) (name : String) : Reading String := parenthesised do
  let e ← g.exprText
  if ← keyword? .USING then return s!"{name}({e} USING {← nameText g})"
  symbol .comma
  let t ← typeText g
  let charset ← if ← keywords? [.CHARACTER, .SET] then do pure s!" CHARACTER SET {← nameText g}" else pure ""
  return s!"{name}({e}, {t}{charset})"

private def extractOf (g : Grammar) : Reading String := parenthesised do
  let part ← timePart g.dialect
  let separator ← do
    if ← keyword? .FROM then pure " FROM "
    else if ← provided (!g.dialect.isClickHouse) (symbol? .comma) then pure ", "
    else throw (.refused "Expected 'FROM' or ','" none)
  return s!"EXTRACT({part}{separator}{← g.exprText})"

private def roundingOf (g : Grammar) (name : String) : Reading String := parenthesised do
  let e ← g.exprText
  if ← keyword? .TO then return s!"{name}({e} TO {← timePart g.dialect})"
  if !(← symbol? .comma) then return s!"{name}({e})"
  match ← literal with
  | .number n long => return s!"{name}({e}, {(Literal.number n long).text})"
  | _ => throw (.refused "Scale field can only be of number type" none)

private def positionOf (g : Grammar) : Reading Expr := parenthesised do
  let part ← g.operand BindingLevel.comparison
  keyword .IN
  return .other s!"POSITION({part.text} IN {← g.exprText})"

private def substringOf (g : Grammar) (name : String) : Reading String := parenthesised do
  let e ← g.exprText
  let byComma ← symbol? .comma
  let start ← if byComma then some <$> g.exprText else after? .FROM g.exprText
  let length ← if ← keyword? .FOR then some <$> g.exprText else when? (← symbol? .comma) g.exprText
  let part (word : String) (text : Option String) :=
    (text.map ((if byComma then ", " else s!" {word} ") ++ ·)).getD ""
  return s!"{name}({e}" ++ part "FROM" start ++ part "FOR" length ++ ")"

private def overlayOf (g : Grammar) : Reading String := parenthesised do
  let e ← g.exprText
  keyword .PLACING
  let what ← g.exprText
  keyword .FROM
  let start ← g.exprText
  return s!"OVERLAY({e} PLACING {what} FROM {start}{← textAfter .FOR g.exprText})"

-- ClickHouse passes over a comma but knows nothing that may stand behind it.
private def trimOf (g : Grammar) : Reading String := parenthesised do
  let side := match ← oneOf? [.BOTH, .LEADING, .TRAILING] with | some k => k.text ++ " " | none => ""
  let e ← g.exprText
  if ← keyword? .FROM then return s!"TRIM({side}{e} FROM {← g.exprText})"
  let behindComma ← symbol? .comma
  if behindComma && !g.dialect.isClickHouse then return s!"TRIM({e}, {← exprTexts g})"
  return s!"TRIM({side}{e})"

def existsOf (g : Grammar) : Reading String := return s!"EXISTS ({(← parenthesised g.query).text})"

def negation (g : Grammar) : Reading Expr := do
  if ← keyword? .EXISTS then return .other s!"NOT {← existsOf g}"
  return .unary .not (← g.operand BindingLevel.negation)

def arrayOf (g : Grammar) (name : String) : Reading Expr := do
  symbol .lbracket
  let items ← listBefore .rbracket g.exprText
  symbol .rbracket
  return .other s!"{name}[{commaSeparated items}]"

-- Keys and values between braces.
def entriesOf (g : Grammar) (key : Reading String) : Reading String := do
  symbol .lbrace
  let items ← listBefore .rbrace do
    let k ← key
    symbol .colon
    return s!"{k}: {← g.exprText}"
  symbol .rbrace
  return commaSeparated items

private def matchOf (g : Grammar) : Reading String := do
  let columns ← parenthesisedList (nameText g)
  keyword .AGAINST
  parenthesised do
    let value ← literalText
    let search ← firstOf [
      worded? [.IN, .NATURAL, .LANGUAGE, .MODE] do
        return if ← keywords? [.WITH, .QUERY, .EXPANSION] then " WITH QUERY EXPANSION" else "",
      worded? [.IN, .BOOLEAN, .MODE] (pure ""),
      worded? [.WITH, .QUERY, .EXPANSION] (pure "")]
    return s!"MATCH ({commaSeparated columns}) AGAINST ({value}{spaced search})"

-- A function without a name.
private def lambdaOf (g : Grammar) : Reading String := do
  let parameters ← if ← symbolAhead .lparen then parenthesised (texts identText) else texts identText
  symbol .colon
  return s!"lambda {parameters} : {← g.exprText}"

def lambdaBody (g : Grammar) (parameters : String) : Reading Expr := do
  symbol .arrow
  return .other s!"{parameters} -> {← g.exprText}"

private def clockCall (g : Grammar) (name : ObjectName) : Reading Expr := do
  if ← symbol? .lparen then
    let a ← arguments g
    return .call { name, duplicates := a.duplicates, clauses := a.clauses } a.items
  return .call { name, form := .bare } []

-- The form that a word opens, if it opens one.
def formOf (g : Grammar) (interval : Reading Expr) (word : Ident) : Keyword → Reading (Option Expr)
  | .TRUE => return some (.literal (.boolean true))
  | .FALSE => return some (.literal (.boolean false))
  | .NULL => return some (.literal .null)
  | .CURRENT_CATALOG | .CURRENT_USER | .SESSION_USER | .USER =>
    return if g.dialect.isGeneric then some (.call { name, form := .bare } []) else none
  | .CURRENT_TIMESTAMP | .CURRENT_TIME | .CURRENT_DATE | .LOCALTIME | .LOCALTIMESTAMP => some <$> clockCall g name
  | .CASE => written (caseOf g)
  | .CONVERT => written (convertOf g "CONVERT")
  | .TRY_CONVERT => onlyIf g.dialect.isGeneric (convertOf g "TRY_CONVERT")
  | .CAST => written (castOf g "CAST")
  | .TRY_CAST => written (castOf g "TRY_CAST")
  | .SAFE_CAST => written (castOf g "SAFE_CAST")
  | .EXISTS => written (existsOf g)
  | .EXTRACT => written (extractOf g)
  | .CEIL => written (roundingOf g "CEIL")
  | .FLOOR => written (roundingOf g "FLOOR")
  | .POSITION => do
    if !(← symbolAhead .lparen) then return none
    match ← attempt (positionOf g) with
    | some e => return some e
    | none => some <$> callOf g interval name
  | .SUBSTR => written (substringOf g "SUBSTR")
  | .SUBSTRING => written (substringOf g "SUBSTRING")
  | .OVERLAY => written (overlayOf g)
  | .TRIM => written (trimOf g)
  | .INTERVAL => some <$> interval
  | .ARRAY => do
    if ← symbolAhead .lbracket then return some (← arrayOf g "ARRAY")
    if !(← symbolAhead .lparen) || g.dialect.isClickHouse then return none
    let q ← parenthesised g.query
    return some (.call { name, form := .subquery q.text } [])
  | .NOT => some <$> negation g
  | .MATCH => onlyIf g.dialect.isGeneric (matchOf g)
  | .STRUCT => onlyIf g.dialect.isGeneric (structOf g)
  | .PRIOR => when? (g.mode = .hierarchy) do return .other s!"PRIOR {(← g.operand BindingLevel.sum).text}"
  | .MAP => do
    let opens ← symbolAhead .lbrace
    onlyIf (opens && g.dialect.isGeneric) do return s!"MAP \x7b{← entriesOf g g.exprText}\x7d"
  | .LAMBDA => onlyIf g.dialect.hasLambdas (lambdaOf g)
  | _ => pure none
where
  name : ObjectName := .ofIdents [word]
  written (p : Reading String) : Reading (Option Expr) := return some (.other (← p))
  onlyIf (b : Bool) (p : Reading String) : Reading (Option Expr) := if b then written p else pure none

end JoinTree.Sql.Reading
