import JoinTree.Sql.Grammar.Alias
import JoinTree.Sql.Grammar.Expr

/-!
Patterns of rows.
-/

namespace JoinTree.Sql.Reading

private def excluded : Reading String := do
  symbol .minus
  let name ← identText
  symbol .minus
  symbol .rbrace
  return s!"\x7b- {name} -\x7d"

-- A symbol or a group. `whole` reads the pattern of a group.
private def atom (whole : Reading String) : Reading String := do
  match ← token? with
  | some (.symbol .caret) => skip; return "^"
  | some (.placeholder "$") => skip; return "$"
  | some (.symbol .lbrace) => skip; excluded
  | some (.word "PERMUTE" none _) => skip; return s!"PERMUTE({← parenthesised (texts identText)})"
  | some (.symbol .lparen) => return s!"( {← parenthesised whole} )"
  | _ => identText

-- How often at least and at most, the opening brace being read.
private def range : Reading String := do
  let place ← place?
  match ← take? with
  | some ⟨.symbol .comma, _, _, _⟩ =>
    let high ← numeral "literal number"
    symbol .rbrace
    return s!"\x7b,{← smallNumber high place}\x7d"
  | some ⟨.number low _, _, _, _⟩ =>
    if !(← symbol? .comma) then
      symbol .rbrace
      return s!"\x7b{← smallNumber low place}\x7d"
    if ← symbol? .rbrace then return s!"\x7b{← smallNumber low place},\x7d"
    let high ← numeral "\x7d or upper bound"
    symbol .rbrace
    return s!"\x7b{← smallNumber low place},{← smallNumber high place}\x7d"
  | found => throw (.expected "quantifier range" found)
where
  numeral (what : String) : Reading String := tokenOf what fun | .number s _ => some s | _ => none

private def repeated (whole : Reading String) : Reading String := do
  iterate (fun text => do
    match ← token? with
    | some (.symbol .mul) => skip; return some (text ++ "*")
    | some (.symbol .plus) => skip; return some (text ++ "+")
    | some (.placeholder "?") => skip; return some (text ++ "?")
    | some (.symbol .lbrace) => skip; return some (text ++ (← range))
    | _ => return none) (← atom whole)

-- Groups nest no deeper than there are lexemes to read.
private def patternWithin : (n : Nat) → Reading String
  | 0 => expected "identifier"
  | n + 1 => do
    let part : Reading String := repeated (patternWithin n)
    iterate (fun text => do
      if ← symbolAhead .rparen then return none
      if ← symbol? .pipe then return some s!"{text} | {← part}"
      return some s!"{text} {← part}") (← part)

private def pattern : Reading String := fun ls => patternWithin ls.length ls

private def rowsPerMatch : Reading String := do
  let nothing : Reading String := pure ""
  let empties : Reading String := do
    let found ← firstOf [
      worded? [.SHOW, .EMPTY, .MATCHES] nothing, worded? [.OMIT, .EMPTY, .MATCHES] nothing,
      worded? [.WITH, .UNMATCHED, .ROWS] nothing]
    return spaced found
  let found ← firstOf [worded? [.ONE, .ROW, .PER, .MATCH] nothing, worded? [.ALL, .ROWS, .PER, .MATCH] empties]
  return (found.map (· ++ " ")).getD ""

private def afterMatch : Reading String := do
  if !(← keywords? [.AFTER, .MATCH, .SKIP]) then return ""
  let symbolText : Reading String := return " " ++ (← identText)
  match ← firstOf [
    worded? [.PAST, .LAST, .ROW] (pure ""), Option.map (" " ++ ·) <$> worded? [.TO, .NEXT, .ROW] (pure ""),
    worded? [.TO, .FIRST] symbolText, worded? [.TO, .LAST] symbolText] with
  | some target => return s!"AFTER MATCH SKIP {target} "
  | none => expected "after match skip option"

-- What follows the word MATCH_RECOGNIZE.
private def rowPatternOf (g : Grammar) : Reading String := parenthesised do
  let part (ks : List Keyword) (p : Reading String) : Reading String :=
    return (← worded? ks (return s!" {← p} ")).getD ""
  let partition ← part [.PARTITION, .BY] (exprTexts g)
  let order ← part [.ORDER, .BY] (sortKeys g)
  let measures ← part [.MEASURES] (texts do
    let e ← g.exprText
    let _ ← keyword? .AS
    return s!"{e} AS {← identText}")
  let rows ← rowsPerMatch
  let next ← afterMatch
  keyword .PATTERN
  let p ← parenthesised pattern
  keyword .DEFINE
  let symbols ← texts do
    let name ← identText
    keyword .AS
    return s!"{name} AS {← g.exprText}"
  return s!" MATCH_RECOGNIZE({partition}{order}{measures}{rows}{next}PATTERN ({p}) DEFINE {symbols})"

-- A table with the rows that match a pattern, if one follows.
def rowMatched (g : Grammar) (t : TableFactor) : Reading TableFactor := do
  if !(← provided g.dialect.hasRowPatterns (keyword? .MATCH_RECOGNIZE)) then return t
  let text ← rowPatternOf g
  return .phrase { text := t.text ++ text, asName := ← tableAlias? g }

end JoinTree.Sql.Reading
