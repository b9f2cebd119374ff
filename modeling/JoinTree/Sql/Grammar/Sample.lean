import JoinTree.Sql.Grammar.Value

/-!
Samples of tables.
-/

namespace JoinTree.Sql.Reading

-- An amount need not be an expression: `100M` reads as the word behind a number.
private def quantity (g : Grammar) : Reading String := do
  let value ← match ← attempt g.exprText with
    | some text => pure text
    | none =>
      match ← token? with
      | some (.word v _ _) => do skip; pure v
      | _ => do skip; refuse "Expecting number or byte length e.g. 100M"
  let unit := match ← oneOf? [.ROWS, .PERCENT] with | some k => " " ++ k.text | none => ""
  return value ++ unit

private def bucket (g : Grammar) : Reading String := do
  let chosen ← numberText
  keywords [.OUT, .OF]
  let total ← numberText
  return s!" (BUCKET {chosen} OUT OF {total}{← textAfter .ON g.exprText})"

-- What follows the word SAMPLE. The bucket is written behind the seed.
def sampleOf (g : Grammar) : Reading String := do
  let method := match ← oneOf? [.BERNOULLI, .ROW, .SYSTEM, .BLOCK] with | some k => " " ++ k.text | none => ""
  let (amount, bucket) ← do
    if ← symbol? .lparen then
      let inside ← if ← keyword? .BUCKET then do pure ("", ← bucket g) else do pure (s!" ({← quantity g})", "")
      symbol .rparen
      pure inside
    else pure (s!" {← quantity g}", "")
  let seed ← match ← oneOf? [.REPEATABLE, .SEED] with
    | some k => do pure s!" {k.text} ({← parenthesised numberText})"
    | none => pure ""
  return s!"{method}{amount}{seed}{bucket}{← textAfter .OFFSET g.exprText}"

-- The sample behind a table, if there is one.
def sample (g : Grammar) : Reading String := do
  match ← oneOf? [.TABLESAMPLE, .SAMPLE] with
  | some k => return s!" {k.text}{← sampleOf g}"
  | none => return ""

end JoinTree.Sql.Reading
