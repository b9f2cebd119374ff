import JoinTree.Sql.Grammar.Alias
import JoinTree.Sql.Grammar.Expr

/-!
Tables that a call stands for.
-/

namespace JoinTree.Sql.Reading

-- Arguments.

def settings? (g : Grammar) : Reading (Option String) := do
  if ← provided (!g.dialect.isSnowflake) (keyword? .SETTINGS) then return some s!"SETTINGS {← texts (keyValue g)}"
  return none

-- The arguments of a table function, settings last, the opening parenthesis being read already.
def tableArguments (g : Grammar) : Reading String := do
  if ← symbol? .rparen then return ""
  let (items, _) ← iterate (α := List String × Bool) (fun (items, more) => do
    if !more then return none
    match ← settings? g with
    | some s => return some (items ++ [s], false)
    | none =>
      let item := (← argument g).text
      return some (items ++ [item], ← symbol? .comma)) ([], true)
  symbol .rparen
  return commaSeparated items

-- Tables out of documents.

private inductive OnFailure where
  | empty | error

private def jsonFallback? : Reading (Option (OnFailure × String)) := do
  let found ← firstOf [
    worded? [.NULL] (pure ""), worded? [.ERROR] (pure ""), worded? [.DEFAULT] do return s!" {← literalText}"]
  match found with
  | none => return none
  | some value =>
    keyword .ON
    if ← keyword? .EMPTY then return some (.empty, s!" {value} ON EMPTY")
    keyword .ERROR
    return some (.error, s!" {value} ON ERROR")

private def jsonColumn (g : Grammar) : (n : Nat) → Reading String
  | 0 => expected "identifier"
  | n + 1 => do
    if ← keyword? .NESTED then
      let _ ← keyword? .PATH
      let path ← literalText
      keyword .COLUMNS
      return s!"NESTED PATH {path} COLUMNS ({← parenthesised (texts (jsonColumn g n))})"
    let name ← identText
    if ← keyword? .FOR then
      keyword .ORDINALITY
      return s!"{name} FOR ORDINALITY"
    let type ← typeText g
    let mark := if ← keyword? .EXISTS then " EXISTS" else ""
    keyword .PATH
    let path ← literalText
    let (onEmpty, onError) ← iterate (α := String × String) (fun (onEmpty, onError) => do
      match ← jsonFallback? with
      | some (.empty, text) => return some (text, onError)
      | some (.error, text) => return some (onEmpty, text)
      | none => return none) ("", "")
    return s!"{name} {type}{mark} PATH {path}{onEmpty}{onError}"

private def jsonTable (g : Grammar) : Reading String := parenthesised do
  let document ← g.exprText
  symbol .comma
  let path ← literalText
  keyword .COLUMNS
  let columns ← parenthesised (texts fun ls => jsonColumn g ls.length ls)
  return s!"JSON_TABLE({document}, {path} COLUMNS({columns}))"

private def openJsonColumn (g : Grammar) : Reading String := do
  let name ← identText
  let type ← typeText g
  let path ← match ← token? with
    | some (.string s) => do skip; pure (" " ++ quotedText '\'' s)
    | _ => pure ""
  if !(← keyword? .AS) then return s!"{name} {type}{path}"
  keyword .JSON
  return s!"{name} {type}{path} AS JSON"

private def openJson (g : Grammar) : Reading String := do
  let source ← parenthesised do
    let document ← g.exprText
    if ← symbol? .comma then return s!"{document}, {← literalText}" else return document
  let columns ← do
    if ← keyword? .WITH then pure s!" WITH ({← parenthesised (texts (openJsonColumn g))})" else pure ""
  return s!"OPENJSON({source}){columns}"

private def xmlColumn (g : Grammar) : Reading String := do
  let name ← identText
  if ← keyword? .FOR then
    keyword .ORDINALITY
    return s!"{name} FOR ORDINALITY"
  let type ← typeText g
  let path ← textAfter .PATH g.exprText
  let default ← textAfter .DEFAULT g.exprText
  let required ← keywords? [.NOT, .NULL]
  unless required do discard (keyword? .NULL)
  return s!"{name} {type}{path}{default}" ++ (if required then " NOT NULL" else "")

-- BY without VALUE behind it is passed over.
private def xmlSource (g : Grammar) : Reading String := do
  let byValue ← provided (← keyword? .BY) (keyword? .VALUE)
  return (if byValue then "BY VALUE " else "") ++ (← exprAs g)

private def xmlTable (g : Grammar) : Reading String := parenthesised do
  let namespaces ← do
    if ← keyword? .XMLNAMESPACES then
      let items ← parenthesised (texts do
        let uri ← g.exprText
        keyword .AS
        return s!"{uri} AS {← identText}")
      symbol .comma
      pure s!"XMLNAMESPACES({items}), "
    else pure ""
  let row ← g.exprText
  let passing ← textAfter .PASSING (texts (xmlSource g))
  keyword .COLUMNS
  return s!"XMLTABLE({namespaces}{row}{passing} COLUMNS {← texts (xmlColumn g)})"

-- Views with clauses in any order, each at most once.

private def viewClauses : List Keyword := [.DIMENSIONS, .METRICS, .FACTS, .WHERE]

private def semanticView (g : Grammar) : Reading String := parenthesised do
  let name ← nameText g
  let found ← iterate (α := List (Keyword × String)) (fun found => do
    if ← symbolAhead .rparen then return none
    match ← oneOf? viewClauses with
    | some k =>
      if found.any (·.1 = k) then throw (.refused s!"{k.text} clause can only be specified once" none)
      let text ← if k = .WHERE then g.exprText else texts (Expr.text <$> exprOrStar g)
      return some (found ++ [(k, s!" {k.text} {text}")])
    | none =>
      let next := ((← token?).map Token.text).getD "EOF"
      refuse s!"Expected one of DIMENSIONS, METRICS, FACTS or WHERE, got {next}") []
  return s!"SEMANTIC_VIEW({name}" ++ String.join (viewClauses.filterMap (found.lookup ·)) ++ ")"

-- A call with a grammar of its own, if the text starts with one.
def tableFunction? (g : Grammar) : Reading (Option String) := do
  if (← tokenAt? 1) ≠ some (.symbol .lparen) then return none
  match ← ahead? with
  | some .JSON_TABLE => skip; jsonTable g
  | some .OPENJSON => skip; openJson g
  | some .XMLTABLE => skip; xmlTable g
  | some .SEMANTIC_VIEW => if g.dialect.isSnowflake then skip; semanticView g else return none
  | _ => return none

-- Stages.

private def stagePiece? : Token → Option String
  | .symbol .atSign => "@" | .symbol .tilde => "~" | .symbol .mod => "%" | .symbol .div => "/" | .symbol .plus => "+"
  | .symbol .minus => "-" | .number n _ => n
  | t@(.word ..) => t.text
  | _ => none

-- The name runs up to the first blank.
private def stagePart (name : String) : List Lexeme → Except SyntaxError (String × List Lexeme)
  | [] => .ok (name, [])
  | l :: rest =>
    match l.token, stagePiece? l.token with
    | .symbol .period, _ | .symbol .lparen, _ | .symbol .rparen, _ => .ok (name, l :: rest)
    | .symbol .semicolon, _ => .ok (name, rest)
    | _, some s => if l.gap.isEmpty then stagePart (name ++ s) rest else .ok (name ++ s, rest)
    | _, none => .error (.expected "stage name identifier" rest.head?)

-- The dotted name of a stage, which starts with an at sign.
def stageName : Reading ObjectName := do
  let parts ← iterate (α := List String) (fun parts => do
    match ← next? with
    | some l =>
      if l.token ≠ .symbol .period then return none
      skip
      if l.gap.isEmpty then return some (parts ++ [← stagePart ""]) else return some (parts ++ [""])
    | none => return none) [← stagePart ""]
  return .ofIdents (parts.map (⟨·, none⟩))

end JoinTree.Sql.Reading
