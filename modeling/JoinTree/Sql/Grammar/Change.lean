import JoinTree.Sql.Grammar.Relation
import JoinTree.Sql.Grammar.SelectList

/-!
Statements that change rows. They may also stand in the place of a query, so they have a canonical text.
-/

namespace JoinTree.Sql.Reading

private def hint (g : Grammar) (word : Lexeme) : String := if g.dialect.keepsHints then hintBehind word else ""

private def assignment (g : Grammar) : Reading String := do
  let target ← if ← symbolAhead .lparen then do pure s!"({← parenthesised (texts (nameText g))})" else nameText g
  symbol .eq
  return s!"{target} = {← g.exprText}"

def assignments (g : Grammar) : Reading String := texts (assignment g)

private def condition (g : Grammar) : Reading String := textAfter .WHERE g.exprText
private def returning (g : Grammar) : Reading String := textAfter .RETURNING (selectItems g)
private def entries (g : Grammar) : Reading String := return entriesText (← list (entry g))

-- What to do with a row that is there already.
private def conflictAction? : Reading (Option String) :=
  firstOf ([Keyword.REPLACE, .ROLLBACK, .ABORT, .FAIL, .IGNORE].map fun k => worded? [.OR, k] (pure ""))

-- INSERT.

private def subqueryAhead : Reading Bool := do
  return (← symbolAhead .lparen) && ((← tokenAt? 1).bind Token.keyword?).any [Keyword.SELECT, .WITH].contains

private def fileFormats : List String :=
  ["TEXTFILE", "SEQUENCEFILE", "ORC", "PARQUET", "AVRO", "RCFILE", "JSONFILE"]

private def directory (g : Grammar) (opening : String) : Reading String := do
  let path ← literalString g.dialect
  let format ← do
    if ← keywords? [.STORED, .AS] then
      let f ← tokenOf "fileformat" fun
        | .word v none _ => fileFormats.find? (· = Text.upper v)
        | _ => none
      pure s!" STORED AS {f}"
    else pure ""
  return s!"{opening} DIRECTORY '{path}'{format} {(← g.query).text}"

-- Where new rows come from.
private def insertedRows (g : Grammar) : Reading (Option String) := do
  if ← anyAhead [.FORMAT, .SETTINGS] then return none
  if ← provided g.dialect.isGeneric (keyword? .SET) then return some s!"SET {← assignments g}"
  return some (← g.query).text

private def inputFormat (g : Grammar) : Reading (Option String) := do
  if !(← keyword? .FORMAT) then return none
  let name ← identText
  return some s!"FORMAT {name}{spaced (← attempt (exprTexts g))}"

private def onInsert (g : Grammar) : Reading String := do
  if !(← keyword? .ON) then return ""
  if !(← keyword? .CONFLICT) then
    keywords [.DUPLICATE, .KEY, .UPDATE]
    return s!" ON DUPLICATE KEY UPDATE {← assignments g}"
  let target ← do
    if ← keywords? [.ON, .CONSTRAINT] then pure s!" ON CONSTRAINT {← nameText g}"
    else if ← symbolAhead .lparen then pure s!"({← parenthesised (texts identText)})"
    else pure ""
  keyword .DO
  if ← keyword? .NOTHING then return s!" ON CONFLICT{target} DO NOTHING"
  keywords [.UPDATE, .SET]
  let changes ← assignments g
  return s!" ON CONFLICT{target} DO UPDATE SET {changes}{← condition g}"

private def insertion (g : Grammar) (hint : String) : Reading String := do
  let d := g.dialect
  let conflict ← conflictAction?
  let priority ← if d.isGeneric then oneOf? [.LOW_PRIORITY, .DELAYED, .HIGH_PRIORITY] else pure none
  let ignoring ← provided d.isGeneric (keyword? .IGNORE)
  let overwriting ← keyword? .OVERWRITE
  let into ← keyword? .INTO
  let here ← keyword? .LOCAL
  let word (holds : Bool) (k : Keyword) : String := if holds then " " ++ k.text else ""
  if ← keyword? .DIRECTORY then return ← directory g s!"INSERT{word overwriting .OVERWRITE}{word here .LOCAL}"
  let table ← keyword? .TABLE
  let target ← do
    if ← provided d.isClickHouse (keyword? .FUNCTION) then
      let name ← objectName g
      pure s!"FUNCTION {(← callOf g (interval g) name).text}"
    else nameText g
  let opening := match conflict with
    | some action => s!"INSERT{hint} {action} INTO {target} "
    | none => s!"INSERT{hint}{spaced (priority.map Keyword.text)}{word ignoring .IGNORE}{word overwriting .OVERWRITE}" ++
        s!"{word into .INTO}{word table .TABLE} {target} "
  let ending (g : Grammar) : Reading String := do
    let asName ← do
      if ← provided d.isGeneric (keyword? .AS) then
        let name ← nameText g
        pure s!" AS {name}{← optionalColumns}"
      else pure ""
    let conflict ← onInsert g
    return asName ++ conflict ++ (← returning g)
  let columns : Reading (String × String) := do
    if ← subqueryAhead then return ("", "")
    let names ← if ← symbolAhead .lparen then do pure s!"({← parenthesised (texts identText)}) " else pure ""
    let partition ← do
      if ← keyword? .PARTITION then pure s!"PARTITION ({← parenthesised (exprTexts g)}) " else pure ""
    return (names, partition)
  let default ← keywords? [.DEFAULT, .VALUES]
  let (names, partition) ← if default then pure ("", "") else columns
  let rows ← if default then pure none else insertedRows g
  let settings ← if d.isClickHouse then settings? g else pure none
  let format ← if d.isClickHouse then inputFormat g else pure none
  let settingText := (settings.map (· ++ " ")).getD ""
  let source := (rows <|> format).getD (if names = "" then "DEFAULT VALUES" else "")
  return s!"{opening}{names}{partition}{settingText}{source}{← ending g}"

-- UPDATE and DELETE.

private def update (g : Grammar) (hint : String) : Reading String := do
  let action := ((← conflictAction?).map (· ++ " ")).getD ""
  let target ← entry g
  let early ← textAfter .FROM (entriesText <$> fromList g)
  keyword .SET
  let changes ← assignments g
  let late ← if early = "" then textAfter .FROM (entriesText <$> fromList g) else pure ""
  let test ← condition g
  let result ← returning g
  let opening := s!"UPDATE{hint} {action}{target.text}{early} SET {changes}"
  return opening ++ late ++ test ++ result ++ (← textAfter .LIMIT g.exprText)

private def deletion (g : Grammar) (hint : String) : Reading String := do
  let opening ← do
    if ← keyword? .FROM then pure " FROM"
    else if g.dialect.isGeneric then pure ""
    else
      let tables ← texts (nameText g)
      keyword .FROM
      pure s!" {tables} FROM"
  let sources ← entries g
  let others ← textAfter .USING (entries g)
  let test ← condition g
  let result ← returning g
  let order ← clause [.ORDER, .BY] (sortKeys g)
  let limit ← textAfter .LIMIT g.exprText
  return s!"DELETE{hint}{opening} {sources}{others}" ++ test ++ result ++ order ++ limit

-- MERGE.

private inductive MatchKind where
  | matched | unmatched | unmatchedByTarget | unmatchedBySource
  deriving DecidableEq

private def MatchKind.text : MatchKind → String
  | matched => "MATCHED" | unmatched => "NOT MATCHED" | unmatchedByTarget => "NOT MATCHED BY TARGET"
  | unmatchedBySource => "NOT MATCHED BY SOURCE"

-- Rows are inserted exactly where the target has none.
private def MatchKind.inserts (m : MatchKind) : Bool := m = unmatched || m = unmatchedByTarget

private def mergeMatch : Reading MatchKind := do
  let negated ← keyword? .NOT
  keyword .MATCHED
  if !negated then return .matched
  if ← keywords? [.BY, .SOURCE] then return .unmatchedBySource
  if ← keywords? [.BY, .TARGET] then return .unmatchedByTarget
  return .unmatched

private def mergedRow (g : Grammar) : Reading String := do
  let columns ← if ← symbolAhead .lparen then do pure s!" ({← parenthesised (texts (nameText g))})" else pure ""
  let row ← do
    if ← provided g.dialect.isGeneric (keyword? .ROW) then pure "ROW"
    else
      keyword .VALUES
      pure s!"VALUES {← valueRows g}"
  return s!"INSERT{columns} {row}{← condition g}"

private def mergeAction (g : Grammar) (m : MatchKind) : Reading String := do
  let some word ← next? | fail
  let allowed (k : Keyword) (holds : Bool) : Reading Unit := do
    skip
    unless holds do throw (.refused s!"{k.text} is not allowed in a {m.text} merge clause" (some word.start))
  match word.token.keyword? with
  | some .UPDATE =>
    allowed .UPDATE (!m.inserts)
    keyword .SET
    let changes ← assignments g
    let test ← condition g
    let removal ← if ← keyword? .DELETE then do keyword .WHERE; pure s!" DELETE WHERE {← g.exprText}" else pure ""
    return s!"UPDATE SET {changes}{test}{removal}"
  | some .DELETE => allowed .DELETE (!m.inserts); return "DELETE"
  | some .INSERT => allowed .INSERT m.inserts; mergedRow g
  | _ => fail
where
  fail : Reading String := refuse "expected UPDATE, DELETE or INSERT in merge clause"

private def mergeClause (g : Grammar) : Reading String := do
  let kind ← mergeMatch
  let test ← textAfter .AND g.exprText
  keyword .THEN
  return s!" WHEN {kind.text}{test} THEN {← mergeAction g kind}"

-- The table that rows are kept in.
def intoTable (g : Grammar) : Reading String := do
  let temporary := if (← oneOf? [.TEMP, .TEMPORARY]).isSome then "TEMPORARY " else ""
  let unlogged := if ← keyword? .UNLOGGED then "UNLOGGED " else ""
  let table := if ← keyword? .TABLE then "TABLE " else ""
  return s!"{temporary}{unlogged}{table}{← nameText g}"

private def mergeOutput (g : Grammar) : Reading String := do
  if ← keyword? .OUTPUT then
    let items ← projection g
    return s!" OUTPUT {items}{← textAfter .INTO (intoTable g)}"
  textAfter .RETURNING (projection g)

private def merging (g : Grammar) (hint : String) : Reading String := do
  let into := if ← keyword? .INTO then " INTO" else ""
  let target ← g.factor
  keyword .USING
  let source ← g.factor
  keyword .ON
  let on ← g.exprText
  let clauses ← iterate (fun text => do
    if ← keyword? .WHEN then return some (text ++ (← mergeClause g)) else return none) ""
  return s!"MERGE{hint}{into} {target.text} USING {source.text} ON {on}{clauses}{← mergeOutput g}"

-- A change of rows, if the text starts with one.
def change? (g : Grammar) : Reading (Option String) := do
  let some word ← next? | return none
  let reading (p : Grammar → String → Reading String) : Reading (Option String) := do
    skip
    some <$> p g (hint g word)
  match word.token.keyword? with
  | some .INSERT => reading insertion
  | some .UPDATE => reading update
  | some .DELETE => reading deletion
  | some .MERGE => reading merging
  | _ => return none

end JoinTree.Sql.Reading
