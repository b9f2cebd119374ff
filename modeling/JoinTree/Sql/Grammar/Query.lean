import JoinTree.Sql.Grammar.PipeStep

/-!
Queries. Only the FROM clause of a plain SELECT keeps its structure.
-/

namespace JoinTree.Sql

namespace Reading

-- What stands between SELECT and the items.

def top (g : Grammar) : Reading String := do
  if !(← keyword? .TOP) then return ""
  let quantity ← do
    if ← symbolAhead .lparen then pure s!"({← parenthesised g.exprText})" else pure (toString (← naturalNumber))
  let percent := if ← keyword? .PERCENT then " PERCENT" else ""
  let ties := if ← keywords? [.WITH, .TIES] then " WITH TIES" else ""
  return s!" TOP {quantity}{percent}{ties}"

def distinct (g : Grammar) : Reading String := do
  let place ← place?
  if ← keyword? .ALL then
    if ← isAhead .DISTINCT then throw (.refused "Cannot specify ALL then DISTINCT" place)
    return " ALL"
  if !(← keyword? .DISTINCT) then return ""
  if ← isAhead .ALL then throw (.refused "Cannot specify DISTINCT then ALL" place)
  if !(← keyword? .ON) then return " DISTINCT"
  return s!" DISTINCT ON ({commaSeparated (← parenthesised (listBefore .rparen g.exprText))})"

-- Clauses behind FROM.

def lateralView (g : Grammar) : Reading (Option String) := do
  if !(← keywords? [.LATERAL, .VIEW]) then return none
  let outer := if ← keyword? .OUTER then " OUTER" else ""
  let e ← g.exprText
  let name ← nameText g
  let columns ← list (alias? fun k _ => !([.WHERE, .GROUP, .CLUSTER, .HAVING, .LATERAL].contains k))
  let columns := columns.filterMap id
  let columnText := if columns.isEmpty then "" else " AS " ++ commaSeparated (columns.map Ident.text)
  return some s!" LATERAL VIEW{outer} {e} {name}{columnText}"

def hierarchyStep (g : Grammar) : Reading (Option String) := do
  if ← keywords? [.START, .WITH] then return some s!" START WITH {← g.exprText}"
  if ← keywords? [.CONNECT, .BY] then
    let cycles := if ← keyword? .NOCYCLE then " NOCYCLE" else ""
    return some s!" CONNECT BY{cycles} {← exprTexts (g.inMode .hierarchy)}"
  return none

def textsOf (clause : Reading (Option String)) : Reading String :=
  iterate (fun text => return (← clause).map (text ++ ·)) ""

private def keyList (items : List String) : String := s!"({commaSeparated items})"

-- Keys between parentheses, perhaps none.
private def keySet (g : Grammar) : Reading (List String) := parenthesised (listBefore .rparen g.exprText)

private def keySetOrKey (g : Grammar) : Reading (List String) := do
  if ← symbolAhead .lparen then keySet g else List.singleton <$> g.exprText

-- A set of one key is written as the key.
private def setOrKeyText : List String → String
  | [key] => key
  | keys => keyList keys

private def groupingKey (g : Grammar) : Reading String := do
  let sets (p : Reading (List String)) (text : List String → String) : Reading String :=
    return keyList ((← parenthesised (list p)).map text)
  if ← keywords? [.GROUPING, .SETS] then return s!"GROUPING SETS {← sets (keySet g) keyList}"
  if ← keyword? .CUBE then return s!"CUBE {← sets (keySetOrKey g) setOrKeyText}"
  if ← keyword? .ROLLUP then return s!"ROLLUP {← sets (keySetOrKey g) setOrKeyText}"
  if ← symbols? [.lparen, .rparen] then return "()"
  g.exprText

private def groupingModifier : Reading (Option String) := do
  if ← keyword? .WITH then return some s!" WITH {(← oneOf [.ROLLUP, .CUBE, .TOTALS]).text}" else return none

def grouping (g : Grammar) : Reading String := do
  if !(← keywords? [.GROUP, .BY]) then return ""
  let keys ← if ← keyword? .ALL then pure "ALL" else texts (groupingKey g)
  let modifiers ← if g.dialect.isSnowflake then pure "" else textsOf groupingModifier
  let sets ← clause [.GROUPING, .SETS] (return keyList ((← parenthesised (list (keySetOrKey g))).map keyList))
  return s!" GROUP BY {keys}{modifiers}{sets}"

private def namedWindow (g : Grammar) : Reading String := do
  let name ← identText
  keyword .AS
  if ← symbolAhead .lparen then return s!"{name} AS ({← parenthesised (window g (interval g))})"
  if g.dialect.isGeneric then return s!"{name} AS {← identText}"
  expected "("

def windows (g : Grammar) : Reading String := textAfter .WINDOW (texts (namedWindow g))

def clauses (g : Grammar) : Reading String := do
  let views ← textsOf (lateralView g)
  let prewhere ← if g.dialect.isSnowflake then pure "" else textAfter .PREWHERE g.exprText
  let condition ← textAfter .WHERE g.exprText
  let hierarchy ← textsOf (hierarchyStep g)
  let groups ← grouping g
  let cluster ← clause [.CLUSTER, .BY] (exprTexts g)
  let distribute ← clause [.DISTRIBUTE, .BY] (exprTexts g)
  let sort ← clause [.SORT, .BY] (sortKeys g)
  let having ← textAfter .HAVING g.exprText
  let early ← windows g
  let qualify ← textAfter .QUALIFY g.exprText
  let late ← if early = "" && qualify ≠ "" then windows g else pure ""
  return views ++ prewhere ++ condition ++ hierarchy ++ groups ++ cluster ++ distribute ++ sort ++ having ++ early ++
    qualify ++ late

-- The text of a SELECT, the place that it starts at, and its FROM clause.
structure Select where
  text : String
  start : Option Location
  entries : List FromEntry

def select (g : Grammar) : Reading Select := do
  let d := g.dialect
  let place ← place?
  let early ← if ← provided d.hasFromFirst (keyword? .FROM) then some <$> fromList g else pure none
  if let some entries := early then
    if !(← isAhead .SELECT) then return ⟨s!"FROM {entriesText entries}", place, entries⟩
  let word ← next?
  let hint := if d.keepsHints then (word.map hintBehind).getD "" else ""
  keyword .SELECT
  let distinct ← distinct g
  let top ← top g
  let items ← if ← provided d.hasEmptyProjection (isAhead .FROM) then pure "" else do pure s!" {← projection g}"
  let into ← textAfter .INTO (intoTable g)
  let head := s!"SELECT{hint}{distinct}{top}{items}{into}"
  match early with
  | some entries => return ⟨s!"FROM {entriesText entries} {head}{← clauses g}", none, entries⟩
  | none =>
    let entries ← if ← keyword? .FROM then fromList g else pure []
    let source := if entries.isEmpty then "" else s!" FROM {entriesText entries}"
    return ⟨s!"{head}{source}{← clauses g}", place, entries⟩

-- Bodies.

structure Body where
  text : String
  start : Option Location
  body : QueryBody

private def otherBody (text : String) (start : Option Location) : Body := ⟨text, start, .other text⟩

-- The name of a table is taken from a stretch of three tokens, whatever they are.
private def tableBody : Reading String := do
  let first ← take?
  let second ← take?
  let third ← take?
  let named (what : String) (l : Option Lexeme) : Reading String :=
    match l.map Lexeme.token with
    | some (.word v _ _) => pure v
    | _ => throw (.expected what l)
  if second.map Lexeme.token = some (.symbol .period) then
    let schema ← named "Schema name" first
    let table ← named "Table name" third
    return s!"TABLE {schema}.{table}"
  return "TABLE " ++ (← named "Table name" first)

def bodyStart (g : Grammar) : Reading Body := do
  let isSelect ← isAhead .SELECT
  if isSelect || (g.dialect.hasFromFirst && (← isAhead .FROM)) then
    let s ← select g
    return ⟨s.text, s.start, .select s.entries⟩
  if ← symbolAhead .lparen then
    let q ← parenthesised g.query
    return ⟨s!"({q.text})", q.start, .parenthesised⟩
  match ← oneOf? [.VALUES, .VALUE] with
  | some k => return otherBody s!"{k.text} {← valueRows g}" none
  | none =>
    if ← keyword? .TABLE then return otherBody (← tableBody) none
    expected "SELECT, VALUES, or a subquery in the query body"

-- The right side of a set operation binds tighter than the left one, so `n` counts the levels.
def bodyAt (g : Grammar) : (n : Nat) → (level : Nat) → Reading Body
  | 0, _ => bodyStart g
  | n + 1, level => do
    iterate (fun left => do
      let some k ← ahead? | return none
      let next := k.setLevel
      if next ≤ level then return none
      skip
      let quantifier ← setQuantifier
      let right ← bodyAt g n next
      return some (otherBody s!"{left.text} {k.text}{spaced quantifier} {right.text}" left.start)) (← bodyStart g)

-- Clauses of a whole query.

private def interpolated (g : Grammar) : Reading String := do
  let item : Reading String := do
    let name ← identText
    return name ++ (← textAfter .AS g.exprText)
  if !(← keyword? .INTERPOLATE) then return ""
  if ← symbolAhead .lparen then
    return s!" INTERPOLATE ({commaSeparated (← parenthesised (listBefore .rparen item))})"
  return " INTERPOLATE"

def order (g : Grammar) : Reading String := do
  if !(← keywords? [.ORDER, .BY]) then return ""
  if ← provided g.dialect.isClickHouse (keyword? .ALL) then
    let way ← direction
    return s!" ORDER BY ALL{way}{← nullsOrder}"
  let keys ← sortKeys g
  return s!" ORDER BY {keys}" ++ (← if g.dialect.isSnowflake then pure "" else interpolated g)

private def offset (g : Grammar) : Reading String := do
  let value ← g.exprText
  let rows := match ← oneOf? [.ROW, .ROWS] with | some k => " " ++ k.text | none => ""
  return s!" OFFSET {value}{rows}"

def limit (g : Grammar) : Reading String := do
  let d := g.dialect
  let early ← if ← keyword? .OFFSET then offset g else pure ""
  if !(← keyword? .LIMIT) then return early
  let amount ← if ← keyword? .ALL then pure none else some <$> g.exprText
  if early = "" then
    if let some a := amount then
      if ← provided (!d.isSnowflake) (symbol? .comma) then return s!" LIMIT {a}, {← g.exprText}"
  let keys ← if d.isSnowflake then pure "" else textAfter .BY (exprTexts g)
  let late ← if early ≠ "" then pure early else if ← keyword? .OFFSET then offset g else pure ""
  return ((amount.map (" LIMIT " ++ ·)).getD "") ++ late ++ keys

def fetch : Reading String := do
  if !(← keyword? .FETCH) then return ""
  let _ ← oneOf? [.FIRST, .NEXT]
  let quantity ← do
    if (← oneOf? [.ROW, .ROWS]).isSome then pure ""
    else
      let amount ← literalText
      let percent := if ← keyword? .PERCENT then " PERCENT" else ""
      let _ ← oneOf? [.ROW, .ROWS]
      pure s!" {amount}{percent}"
  let only ← keyword? .ONLY
  let ties ← provided (!only) (keywords? [.WITH, .TIES])
  return s!" FETCH FIRST{quantity} ROWS " ++ (if ties then "WITH TIES" else "ONLY")

private def lock (g : Grammar) : Reading String := do
  let kind ← oneOf [.UPDATE, .SHARE]
  let tables ← textAfter .OF (nameText g)
  let waiting ← firstOf [worded? [.NOWAIT] (pure ""), worded? [.SKIP, .LOCKED] (pure "")]
  return s!" FOR {kind.text}{tables}{spaced waiting}"

-- How a result is written as one document. Each option counts once, and the options have an order of their own; an
-- option that is not known is passed over.

private def quotedName (d : Dialect) : Reading String := return s!"('{← parenthesised (literalString d)}')"

private def documentOptions (option : Reading (Option (Keyword × String))) (order : List Keyword) : Reading String := do
  let found ← iterate (α := List (Keyword × String)) (fun found => do
    if !(← symbol? .comma) then return none
    match ← option with
    | some o => return some (o :: found)
    | none => return some found) []
  return String.join (order.filterMap fun k => (found.lookup k).map (", " ++ ·))

private def xmlForm (d : Dialect) : Reading String := do
  let name : Reading String := do if ← symbolAhead .lparen then quotedName d else return ""
  match ← oneOf? [.RAW, .AUTO, .EXPLICIT, .PATH] with
  | some .RAW => return s!"RAW{← name}"
  | some .PATH => return s!"PATH{← name}"
  | some k => return k.text
  | none => throw (.refused "Expected FOR XML [RAW | AUTO | EXPLICIT | PATH ]" none)

private def jsonForm : Reading String := do
  match ← oneOf? [.AUTO, .PATH] with
  | some k => return k.text
  | none => throw (.refused "Expected FOR JSON [AUTO | PATH ]" none)

private def xmlOption (d : Dialect) : Reading (Option (Keyword × String)) := do
  match ← oneOf? [.ELEMENTS, .BINARY, .ROOT, .TYPE] with
  | some .BINARY => keyword .BASE64; return some (.BINARY, "BINARY BASE64")
  | some .ROOT => return some (.ROOT, s!"ROOT{← quotedName d}")
  | some k => return some (k, k.text)
  | none => return none

private def jsonOption (d : Dialect) : Reading (Option (Keyword × String)) := do
  match ← oneOf? [.ROOT, .INCLUDE_NULL_VALUES, .WITHOUT_ARRAY_WRAPPER] with
  | some .ROOT => return some (.ROOT, s!"ROOT{← quotedName d}")
  | some k => return some (k, k.text)
  | none => return none

private def document? (d : Dialect) : Reading (Option String) := do
  match ← oneOf? [.XML, .JSON, .BROWSE] with
  | some .XML =>
    let form ← xmlForm d
    return some s!" FOR XML {form}{← documentOptions (xmlOption d) [.BINARY, .TYPE, .ROOT, .ELEMENTS]}"
  | some .JSON =>
    let form ← jsonForm
    let options ← documentOptions (jsonOption d) [.ROOT, .INCLUDE_NULL_VALUES, .WITHOUT_ARRAY_WRAPPER]
    return some s!" FOR JSON {form}{options}"
  | some k => return some s!" FOR {k.text}"
  | none => return none

-- Locks, and at most one document, which ends them.
def forClauses (g : Grammar) : Reading String := do
  let (text, _) ← iterate (α := String × Bool) (fun (text, more) => do
    if !(← provided more (keyword? .FOR)) then return none
    match ← document? g.dialect with
    | some found => return some (text ++ found, false)
    | none => return some (text ++ (← lock g), true)) ("", true)
  return text

def format (d : Dialect) : Reading String := do
  if d.isSnowflake then return ""
  textAfter .FORMAT do if ← keyword? .NULL then return "NULL" else identText

private def commonTable (g : Grammar) : Reading String := do
  let name ← identText
  let columns ← aliasColumns g
  keyword .AS
  let q ← parenthesised g.query
  let columnText := if columns.isEmpty then "" else " " ++ keyList columns
  return s!"{name}{columnText} AS ({q.text}){← textAfter .FROM identText}"

def commonTables (g : Grammar) : Reading String := do
  if !(← keyword? .WITH) then return ""
  let recursive := if ← keyword? .RECURSIVE then "RECURSIVE " else ""
  return s!"WITH {recursive}{← texts (commonTable g)} "

-- The body of `Grammar.query`. A change of rows may stand in its place.
def queryOf (g : Grammar) : Reading Query := do
  let place ← place?
  let tables ← commonTables g
  let (b, rest) ← bodyAndRest (← place?)
  return { text := tables ++ b.text ++ rest, start := if tables = "" then b.start else place, body := b.body }
where
  bodyAndRest (place : Option Location) : Reading (Body × String) := do
    if let some text ← change? g then return (otherBody text place, "")
    let b ← bodyAt g 2 0
    let keys ← order g
    let range ← limit g
    let settings := spaced (← settings? g)
    let rows ← fetch
    let purpose ← forClauses g
    let format ← format g.dialect
    return (b, keys ++ range ++ settings ++ rows ++ purpose ++ format ++ (← pipeSteps g))

end Reading

namespace Grammar

-- The grammar of texts that nest no deeper than the given number of levels.
def within (d : Dialect) : (levels : Nat) → Grammar
  | 0 => tooDeep d
  | n + 1 =>
    let g := within d n
    { dialect := d, operandIn := fun m => Reading.operandOf (g.inMode m), queryIn := fun m => Reading.queryOf (g.inMode m),
      factorIn := fun m => Reading.factorOf (g.inMode m) }

def maxLevels : Nat := 50

def expression (d : Dialect) : Reading Expr := (within d maxLevels).expr

end Grammar

end JoinTree.Sql
