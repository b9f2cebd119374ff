import JoinTree.Sql.Grammar.Form
import JoinTree.Sql.Grammar.Path

/-!
Expressions. An operand is read from its first words, then the path behind it, then operators as long as they bind
tighter than the level that is asked for.
-/

namespace JoinTree.Sql.Reading

-- First words.

-- A word as a name, as the name of a call, or as the parameter of a function.
def plainWord (g : Grammar) (interval : Reading Expr) (word : Ident) : Reading Expr := do
  let introduced : Reading Expr := do
    if word.value.startsWith "_" then return .other s!"{word.text} {← literalText}" else return .ident word
  match ← token? with
  | some (.symbol .lparen) =>
    if ← outerMarkAhead g.dialect then return .ident word else callOf g interval (.ofIdents [word])
  | some (.string _) => introduced
  | some (.marked s) => if s.mark = .hex then introduced else return .ident word
  | some (.symbol .arrow) => if g.dialect.hasLambdas then lambdaBody g word.text else return .ident word
  | _ => return .ident word

def isReserved (d : Dialect) : Keyword → Bool
  | .EXISTS | .STRUCT | .TRIM => true
  | .INTERVAL => !d.isSnowflake
  | _ => false

-- An order by which equal texts are compared.
def collated (g : Grammar) (e : Expr) : Reading Expr := do
  if ← provided (g.mode ≠ .column) (keyword? .COLLATE) then return .other s!"{e.text} COLLATE {← nameText g}"
  return e

-- A keyword whose form does not follow is a name all the same, unless it is reserved. If no name fits either, the
-- failure of the form is reported.
def wordExpr (g : Grammar) (interval : Reading Expr) (word : Ident) (k : Option Keyword) : Reading Expr := fun ls =>
  let plain := plainWord g interval word
  let settled (p : Reading Expr) : Reading Expr := do collated g (← p)
  match k with
  | none => settled plain ls
  | some k =>
    match formOf g interval word k ls with
    | .ok (some e, rest) => collated g e rest
    | .ok (none, _) => settled plain ls
    | .error failure =>
      if isReserved g.dialect k then .error failure
      else match plain ls with
        | .ok r => .ok r
        | .error _ => .error failure

def typedLiteral (g : Grammar) (interval : Reading Expr) : Reading Expr := do
  match ← typeName g with
  | .interval _ => interval
  | .custom _ => expected "a data type name"
  | .known t => return .other s!"{t} {← literalText}"

def lambda (g : Grammar) : Reading Expr := do
  let parameters ← texts identText
  symbol .rparen
  lambdaBody g s!"({parameters})"

-- What follows an opening parenthesis.
def parenthesis (g : Grammar) : Reading Expr := do
  if ← queryAhead then
    let q ← g.query
    symbol .rparen
    return ← collated g (.phrase .subquery s!"({q.text})")
  if g.dialect.hasLambdas then
    if let some e ← attempt (lambda g) then return e
  let items ← list (g.inMode .plain).expr
  symbol .rparen
  match items with
  | [e] => collated g (.nested e)
  | items => collated g (.tuple items)

private def bracedCall (g : Grammar) (interval : Reading Expr) : Reading Expr := do
  keyword .FN
  let name ← objectName g
  match ← callOf g interval name with
  | .call h args => return .call { h with braced := true } args
  | e => return e

private def bracedLiteral : Reading Expr := do
  let mark ← tokenOf "ODBC datetime keyword (t, d, or ts)" fun t =>
    if ["t", "d", "ts"].contains t.text then some t.text else none
  return .other s!"\x7b{mark} {← literalText}\x7d"

private def brace (g : Grammar) (interval : Reading Expr) : Reading Expr := do
  let braced (p : Reading Expr) : Reading (Option Expr) := attempt do symbol .lbrace; p
  match ← firstOf [braced (bracedCall g interval), braced bracedLiteral] with
  | some e => symbol .rbrace; return e
  | none => return .other s!"\x7b{← entriesOf g identText}\x7d"

-- An operand without the path and the operators behind it. Only an interval repeats this before a level of nesting is
-- taken, so `n` counts intervals.
def startWithin (g : Grammar) : (n : Nat) → Reading Expr
  | 0 => throw .tooDeep
  | n + 1 => do
    let interval := intervalOf g (startWithin g n)
    if (← ahead?).isSome then
      if let some e ← attempt (typedLiteral g interval) then return e
    let signed (op : UnaryOp) (level : Nat) : Reading Expr := do
      skip
      collated g (.unary op (← g.operand level))
    match ← token? with
    | some (.word v q k) => skip; wordExpr g interval ⟨v, q⟩ k
    | some (.symbol .lbracket) => collated g (← arrayOf g "")
    | some (.symbol .minus) => signed .minus BindingLevel.product
    | some (.symbol .plus) => signed .plus BindingLevel.product
    | some (.symbol .tilde) => signed (.other "~") BindingLevel.sum
    | some (.symbol .lparen) => skip; parenthesis g
    | some (.symbol .lbrace) => collated g (← brace g interval)
    | some (.symbol .colon) | some (.symbol .atSign) | some (.number ..) | some (.string _) | some (.marked _)
    | some (.dollarString ..) | some (.placeholder _) => collated g (.literal (← literal))
    | _ => expected "an expression"

def start (g : Grammar) : Reading Expr := fun ls => startWithin g (ls.length + 1) ls

def interval (g : Grammar) : Reading Expr := intervalOf g (start g)

-- Operators.

def binaryOp? (d : Dialect) : Token → Option BinaryOp
  | .symbol s =>
    match s with
    | .eq | .doubleEq => some .eq | .neq => some .notEq | .lt => some .lt | .ltEq => some .ltEq | .gt => some .gt
    | .gtEq => some .gtEq | .plus => some .plus | .minus => some .minus | .mul => some .multiply | .div => some .divide
    | .mod => some .modulo | .concat => some .concat
    | .intDiv | .shiftLeft | .shiftRight | .overlap | .caretAt => if d.hasShifts then some (.other s.text) else none
    | .spaceship | .assignment | .pipe | .caret | .ampersand | .tilde | .tildeStar | .bangTilde | .bangTildeStar
    | .doubleTilde | .doubleTildeStar | .bangDoubleTilde | .bangDoubleTildeStar | .arrow | .longArrow | .hashArrow
    | .hashLongArrow | .atArrow | .arrowAt | .hashMinus | .atQuestion | .atAt => some (.other s.text)
    | _ => none
  | .word _ _ (some .AND) => some .and
  | .word _ _ (some .OR) => some .or
  | .word _ _ (some .XOR) => some (.other "XOR")
  | .word _ _ (some .OVERLAPS) => some (.other "OVERLAPS")
  | _ => none

private def comparesSets : BinaryOp → Bool
  | .gt | .lt | .gtEq | .ltEq | .eq | .notEq => true
  | .other s => ["~", "~*", "!~", "!~*", "~~", "~~*", "!~~", "!~~*"].contains s
  | _ => false

-- The right operand. ANY, ALL and SOME compare with every item of a set.
def rightOperand (g : Grammar) (place : Location) (left : Expr) (op : BinaryOp) (level : Nat) : Reading Expr := do
  match ← oneOf? [.ANY, .ALL, .SOME] with
  | none => return .binary left op (← g.operand level)
  | some k =>
    if !(← symbolAhead .lparen) then symbol .lparen
    let right ← do
      match (← tokenAt? 1).bind Token.keyword? with
      | some .SELECT | some .WITH => g.operand level
      | _ => parenthesised (g.operand level)
    if !comparesSets op then
      throw (.refused ("Expected one of [=, >, <, =>, =<, !=, ~, ~*, !~, !~*, ~~, ~~*, !~~, !~~*] as comparison " ++
        s!"operator, found: {op.text}") (some place))
    let right := if right.isSubquery then right.text else s!"({right.text})"
    return .other s!"{left.text} {op.text} {k.text}{right}"

private def customOp : Reading BinaryOp := do
  let name : Reading String := return ((← take?).map (·.token.text)).getD "EOF"
  let names ← parenthesised do
    iterate (fun names => do if ← symbol? .period then return some (names ++ [← name]) else return none) [← name]
  return .other ("OPERATOR(" ++ ".".intercalate names ++ ")")

def normalised (left : Expr) : Reading Expr := do
  let negated ← keyword? .NOT
  let form := match ← oneOf? [.NFC, .NFD, .NFKC, .NFKD] with | some k => k.text ++ " " | none => ""
  let opening := left.text ++ (if negated then " IS NOT " else " IS ")
  if ← keyword? .NORMALIZED then return .other s!"{opening}{form}NORMALIZED"
  expected "[NOT] NULL | TRUE | FALSE | DISTINCT | [form] NORMALIZED FROM after IS"

def isOf (g : Grammar) (left : Expr) : Reading Expr := do
  if ← keyword? .NULL then return .isNull left
  if ← keywords? [.NOT, .NULL] then return .isNotNull left
  let nothing : Reading String := pure ""
  let compared : Reading String := return " " ++ (← g.exprText)
  match ← firstOf [
    worded? [.TRUE] nothing, worded? [.NOT, .TRUE] nothing, worded? [.FALSE] nothing, worded? [.NOT, .FALSE] nothing,
    worded? [.UNKNOWN] nothing, worded? [.NOT, .UNKNOWN] nothing,
    worded? [.DISTINCT, .FROM] compared, worded? [.NOT, .DISTINCT, .FROM] compared] with
  | some test => return .other s!"{left.text} IS {test}"
  | none => normalised left

def inOf (g : Grammar) (left : String) : Reading Expr := do
  if ← keyword? .UNNEST then return .other s!"{left}IN UNNEST({← parenthesised g.exprText})"
  symbol .lparen
  let inside ← match ← attempt g.query with
    | some q => pure q.text
    | none => exprTexts g
  symbol .rparen
  return .other s!"{left}IN ({inside})"

def likeOf (g : Grammar) (opening : String) (any : Bool) : Reading Expr := do
  let every ← provided any (keyword? .ANY)
  let pattern ← g.operand BindingLevel.like
  return .other (opening ++ (if every then " ANY " else " ") ++ pattern.text ++ (← textAfter .ESCAPE literalText))

-- What follows NOT or a word such as IN, the left operand being read.
def patternOf (g : Grammar) (left : Expr) : Reading Expr := do
  let negated ← keyword? .NOT
  let opening := left.text ++ (if negated then " NOT " else " ")
  let regexp ← keyword? .REGEXP
  let rlike ← keyword? .RLIKE
  let null ← keyword? .NULL
  if regexp || rlike then
    let word := if regexp then "REGEXP" else "RLIKE"
    return .other s!"{opening}{word} {(← g.operand BindingLevel.like).text}"
  if negated && null then return .isNotNull left
  if ← keyword? .IN then return ← inOf g opening
  if ← keyword? .BETWEEN then
    let low ← g.operand BindingLevel.comparison
    keyword .AND
    return .between left negated low (← g.operand BindingLevel.comparison)
  if ← keyword? .LIKE then return ← likeOf g s!"{opening}LIKE" true
  if ← keyword? .ILIKE then return ← likeOf g s!"{opening}ILIKE" true
  if ← keywords? [.SIMILAR, .TO] then return ← likeOf g s!"{opening}SIMILAR TO" false
  expected "IN or BETWEEN after NOT"

-- The expression that `left` and the operator behind it make.
def operated (g : Grammar) (left : Expr) (level : Nat) : Reading Expr := do
  let some l ← next? | return left
  match binaryOp? g.dialect l.token with
  | some op => skip; rightOperand g l.start left op level
  | none =>
    match l.token with
    | .word _ _ (some k) =>
      match k with
      | .IS => skip; isOf g left
      | .AT => do
        keywords [.AT, .TIME, .ZONE]
        return .other s!"{left.text} AT TIME ZONE {(← g.operand level).text}"
      | .NOT | .IN | .BETWEEN | .LIKE | .ILIKE | .SIMILAR | .REGEXP | .RLIKE => patternOf g left
      | .MEMBER => do
        skip
        if !(← keyword? .OF) then expected "OF after MEMBER"
        return .other s!"{left.text} MEMBER OF({← parenthesised g.exprText})"
      | .OPERATOR =>
        if g.dialect.isGeneric then skip; rightOperand g l.start left (← customOp) level else throw (.notInfix l)
      | _ => throw (.notInfix l)
    | .symbol .doubleColon => skip; return .other s!"{left.text}::{← typeText g}"
    | .symbol .colon => return .other (left.text ++ (← valuePath g))
    | .symbol .lbracket =>
      if g.dialect.hasPathAccess then return .other (left.text ++ (← valuePath g)) else throw (.notInfix l)
    | _ => throw (.notInfix l)

-- The body of `Grammar.operand`.
def operandOf (g : Grammar) (level : Nat) : Reading Expr := do
  let first ← pathFrom g (← get) (← start g)
  iterate (fun left => do
    let next := BindingLevel.ahead g (← get)
    if next ≤ level || (← symbolAhead .period) then return none
    return some (← operated g left next)) first

end JoinTree.Sql.Reading
