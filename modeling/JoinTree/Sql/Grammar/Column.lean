import JoinTree.Sql.Grammar.Value

/-!
Definitions of columns: a name, a type and options in any order.
-/

namespace JoinTree.Sql.Reading

private def behindBlank (p : Reading String) : Reading String := return " " ++ (← p)
private def inParentheses (p : Reading String) : Reading String := return s!"({← parenthesised p})"

private def commentText : Reading String := do
  let s ← tokenOf "string literal" fun
    | .string s => some s
    | .dollarString _ s => some s
    | _ => none
  return quotedText '\'' s

-- When a constraint is checked, each property at most once.
private def timing : Reading String := do
  let parts ← iterate (α := Option String × Option String × Option String) (fun (deferrable, initially, enforced) => do
    if ← provided deferrable.isNone (keywords? [.NOT, .DEFERRABLE]) then
      return some (some " NOT DEFERRABLE", initially, enforced)
    if ← provided deferrable.isNone (keyword? .DEFERRABLE) then return some (some " DEFERRABLE", initially, enforced)
    if ← provided initially.isNone (keyword? .INITIALLY) then
      match ← oneOf? [.DEFERRED, .IMMEDIATE] with
      | some k => return some (deferrable, some s!" INITIALLY {k.text}", enforced)
      | none => expected "one of DEFERRED or IMMEDIATE"
    if ← provided enforced.isNone (keyword? .ENFORCED) then return some (deferrable, initially, some " ENFORCED")
    if ← provided enforced.isNone (keywords? [.NOT, .ENFORCED]) then
      return some (deferrable, initially, some " NOT ENFORCED")
    return none) (none, none, none)
  return parts.1.getD "" ++ parts.2.1.getD "" ++ parts.2.2.getD ""

private def referentialAction : Reading String := do
  match ← firstOf [worded? [.RESTRICT] (pure ""), worded? [.CASCADE] (pure ""), worded? [.SET, .NULL] (pure ""),
    worded? [.NO, .ACTION] (pure ""), worded? [.SET, .DEFAULT] (pure "")] with
  | some action => return action
  | none => expected "one of RESTRICT, CASCADE, SET NULL, NO ACTION or SET DEFAULT"

private def referenceMatch : Reading String := do
  match ← oneOf? [.FULL, .PARTIAL, .SIMPLE] with
  | some k => return k.text
  | none => expected "one of FULL, PARTIAL or SIMPLE"

private def reference (g : Grammar) : Reading String := do
  let table ← nameText g
  let columns ← optionalColumns
  let parts ← iterate (α := Option String × Option String × Option String) (fun (kind, onDelete, onUpdate) => do
    if ← provided kind.isNone (keyword? .MATCH) then return some (some s!" MATCH {← referenceMatch}", onDelete, onUpdate)
    if ← provided onDelete.isNone (keywords? [.ON, .DELETE]) then
      return some (kind, some s!" ON DELETE {← referentialAction}", onUpdate)
    if ← provided onUpdate.isNone (keywords? [.ON, .UPDATE]) then
      return some (kind, onDelete, some s!" ON UPDATE {← referentialAction}")
    return none) (none, none, none)
  return s!" {table}{columns}" ++ parts.1.getD "" ++ parts.2.1.getD "" ++ parts.2.2.getD "" ++ (← timing)

private def check (g : Grammar) : Reading String := do
  let condition ← inParentheses (g.inMode .plain).exprText
  if ← keyword? .ENFORCED then return s!" {condition} ENFORCED"
  if ← keywords? [.NOT, .ENFORCED] then return s!" {condition} NOT ENFORCED"
  return s!" {condition}"

private def storage : Reading String := do
  if ← keyword? .STORED then return " STORED"
  if ← keyword? .VIRTUAL then return " VIRTUAL"
  return ""

private def generated? (g : Grammar) : Reading (Option String) := do
  let plain := g.inMode .plain
  if let some text ← worded? [.ALWAYS, .AS, .IDENTITY] (pure "") then return some s!"GENERATED {text}"
  if let some text ← worded? [.BY, .DEFAULT, .AS, .IDENTITY] (pure "") then return some s!"GENERATED {text}"
  if !(← keywords? [.ALWAYS, .AS]) || !(← symbolAhead .lparen) then return none
  return some s!"GENERATED ALWAYS AS {← inParentheses plain.exprText}{← storage}"

private def seedAndStep : Reading String := do
  let seed ← signedNumberText
  symbol .comma
  return s!"{seed}, {← signedNumberText}"

private def identity? : Reading (Option String) := do
  let _ ← keyword? .WITH
  let some k ← oneOf? [.IDENTITY, .AUTOINCREMENT] | throw (.refused "not found match" none)
  let steps ← do
    if ← symbolAhead .lparen then inParentheses seedAndStep
    else if ← keyword? .START then
      let seed ← signedNumberText
      keyword .INCREMENT
      pure s!" START {seed} INCREMENT {← signedNumberText}"
    else pure ""
  let order := match ← oneOf? [.ORDER, .NOORDER] with | some k => " " ++ k.text | none => ""
  return some (k.text ++ steps ++ order)

def keyValue (g : Grammar) : Reading String := do
  let key ← identText
  symbol .eq
  return s!"{key} = {← g.exprText}"

def options (g : Grammar) : Reading String := inParentheses (return ", ".intercalate (← listBefore .rparen (keyValue g)))

-- Some words count as read even where the dialect has no such option.
private def readBefore (ks : List Keyword) (holds : Bool) (p : Reading String) : Reading (Option String) := do
  match ← keywords? ks with
  | true => when? holds do return " ".intercalate (ks.map Keyword.text) ++ (← p)
  | false => return none

private def columnOption? (g : Grammar) : Reading (Option String) := do
  let d := g.dialect
  if d.isSnowflake then
    if let some found ← attempt identity? then return found
  let g := g.inMode .column
  let nothing : Reading String := pure ""
  let onlyIn (holds : Bool) (p : Reading (Option String)) : Reading (Option String) := if holds then p else pure none
  firstOf [
    worded? [.CHARACTER, .SET] (behindBlank (nameText g)),
    worded? [.COLLATE] (behindBlank (nameText g)),
    worded? [.NOT, .NULL] nothing,
    worded? [.COMMENT] (behindBlank commentText),
    worded? [.NULL] nothing,
    worded? [.DEFAULT] (behindBlank g.exprText),
    onlyIn (!d.isSnowflake) (worded? [.MATERIALIZED] (behindBlank g.exprText)),
    onlyIn (!d.isSnowflake) (worded? [.ALIAS] (behindBlank g.exprText)),
    onlyIn (!d.isSnowflake) (worded? [.EPHEMERAL] do
      if (← symbolAhead .comma) || (← symbolAhead .rparen) then nothing else behindBlank g.exprText),
    worded? [.PRIMARY, .KEY] timing,
    worded? [.UNIQUE] timing,
    worded? [.REFERENCES] (reference g),
    worded? [.CHECK] (check g),
    readBefore [.AUTO_INCREMENT] d.isGeneric nothing,
    readBefore [.AUTOINCREMENT] d.isGeneric nothing,
    readBefore [.ON, .UPDATE] d.isGeneric (behindBlank g.exprText),
    do if ← keyword? .GENERATED then generated? g else return none,
    onlyIn d.isGeneric (worded? [.OPTIONS] (options g)),
    readBefore [.AS] d.isGeneric do return s!" {← inParentheses (g.inMode .plain).exprText}{← storage}",
    readBefore [.SRID] d.isGeneric (behindBlank g.exprText),
    readBefore [.IDENTITY] d.isGeneric do if ← symbolAhead .lparen then inParentheses seedAndStep else nothing,
    onlyIn d.isGeneric (worded? [.ON, .CONFLICT] do
      return " " ++ (← oneOf [.ROLLBACK, .ABORT, .FAIL, .IGNORE, .REPLACE]).text),
    worded? [.INVISIBLE] nothing]

-- The options behind the type of a column, each with a blank in front. One of them may have a name.
def columnOptions (g : Grammar) : Reading String :=
  iterate (fun text => do
    if ← keyword? .CONSTRAINT then
      let name ← identText
      match ← columnOption? g with
      | some found => return some s!"{text} CONSTRAINT {name} {found}"
      | none => expected "constraint details after CONSTRAINT <name>"
    else return (← columnOption? g).map fun found => s!"{text} {found}") ""

def column (g : Grammar) (type : Reading String) : Reading String := do
  let name ← identText
  let t ← type
  return s!"{name} {t}{← columnOptions g}"

end JoinTree.Sql.Reading
