import JoinTree.Sql.Grammar.TypeName

/-!
Aliases. Without the word AS a keyword is an alias only where it cannot open anything else.
-/

namespace JoinTree.Sql

-- LIMIT and its like open a clause only in front of a value.
private def limitAhead (ls : List Lexeme) : Bool :=
  match ls.head?.map Lexeme.token with
  | some (.number ..) | some (.placeholder _) => true
  | some (.string s) | some (.dollarString _ s) => s = ""
  | some t => t.keyword? = some .NULL
  | none => false

private def followedBy (ks : List Keyword) (ls : List Lexeme) : Bool :=
  (ls.head?.bind (·.token.keyword?)).any (ks.contains ·)

private def followedByOneOf (ts : List Token) (ls : List Lexeme) : Bool :=
  match ls with
  | [] => true
  | l :: _ => ts.contains l.token

namespace Dialect

-- Snowflake takes most words for a name unless what follows gives them another meaning.
def isTableAlias (d : Dialect) (k : Keyword) (rest : List Lexeme) : Bool :=
  if !d.isSnowflake then !k.isTableClause
  else match k with
    | .RETURNING | .PIVOT | .UNPIVOT | .EXCEPT | .MATCH_RECOGNIZE => followedByOneOf [.symbol .semicolon] rest
    | .LIMIT | .OFFSET => !limitAhead rest
    | .FETCH => !(followedBy [.FIRST, .NEXT] rest || limitAhead rest)
    | .SEMI | .ANTI => !followedBy [.JOIN, .OUTER] rest
    | .GLOBAL => !followedBy [.FULL] rest
    | k => !([.WITH, .ORDER, .SELECT, .WHERE, .GROUP, .HAVING, .LATERAL, .UNION, .INTERSECT, .MINUS, .ON, .JOIN, .INNER,
      .CROSS, .FULL, .LEFT, .RIGHT, .NATURAL, .USING, .ASOF, .MATCH_CONDITION, .SET, .QUALIFY, .FOR, .START, .CONNECT,
      .SAMPLE, .TABLESAMPLE, .FROM].contains k)

def isColumnAlias (d : Dialect) (k : Keyword) (rest : List Lexeme) : Bool :=
  if !d.isSnowflake then !k.isColumnClause
  else match k with
    | .EXCEPT | .RETURNING => followedByOneOf [.symbol .comma] rest
    | .LIMIT | .OFFSET => !limitAhead rest
    | .FETCH => !(followedBy [.FIRST, .NEXT] rest || limitAhead rest)
    | k => !([.FROM, .GROUP, .HAVING, .INTERSECT, .INTO, .MINUS, .ORDER, .SELECT, .UNION, .WHERE, .WITH].contains k)

-- Whether a word behind a comma cannot open another table.
def endsTables (k : Keyword) (rest : List Lexeme) : Bool :=
  if k = .LIMIT && limitAhead rest then true
  else if k = .TABLE && (rest.head?.map (·.token)) = some (.symbol .lparen) then false
  else !k.isTableOpener

end Dialect

namespace Reading

-- A name behind AS, or a word that `fits` without it. `never` holds of words that do not fit behind AS either.
def aliasUnless? (never : Keyword → Bool) (fits : Keyword → List Lexeme → Bool) : Reading (Option Ident) := do
  let explicit ← keyword? .AS
  fun ls =>
    let none' : Except SyntaxError (Option Ident × List Lexeme) :=
      if explicit then .error (.expected "an identifier after AS" ls.head?) else .ok (none, ls)
    match ls with
    | [] => none'
    | l :: rest =>
      match l.token with
      | .word v q k => if k.all fun k => !never k && (explicit || fits k rest) then .ok (some ⟨v, q⟩, rest) else none'
      | .string s => .ok (some ⟨s, some '\''⟩, rest)
      | _ => none'

def alias? (fits : Keyword → List Lexeme → Bool) : Reading (Option Ident) := aliasUnless? (fun _ => false) fits

-- The columns of an alias, each with a type if one is given.
def aliasColumns (g : Grammar) : Reading (List String) := do
  if !(← symbolAhead .lparen) then return []
  parenthesised (list do
    let name ← identText
    return name ++ ((← attempt (typeText g)).map (" " ++ ·)).getD "")

def tableAlias? (g : Grammar) : Reading (Option TableAlias) := do
  let explicit ← isAhead .AS
  match ← alias? g.dialect.isTableAlias with
  | none => return none
  | some name => return some { name, explicit, columns := ← aliasColumns g }

-- An expression and a name for it behind AS.
def exprAs (g : Grammar) : Reading String := do
  let e ← g.exprText
  return e ++ (← textAfter .AS identText)

end Reading

end JoinTree.Sql
