import JoinTree.Sql.Ident

namespace JoinTree.Sql

inductive Literal where
  | number (digits : String) (long : Bool)
  | string (value : String)
  | boolean (value : Bool)
  | null
  | other (text : String)
  deriving DecidableEq, Repr

private def hexDigits (n width : Nat) : List Char :=
  let ds := (Nat.toDigits 16 n).map Char.toUpper
  List.replicate (width - ds.length) '0' ++ ds

private def backslashed (c : Char) : List Char :=
  match c with
  | '\'' => ['\\', '\''] | '\\' => ['\\', '\\'] | '\n' => ['\\', 'n'] | '\t' => ['\\', 't'] | '\r' => ['\\', 'r']
  | c => [c]

private def codePointed (c : Char) : List Char :=
  if c = '\'' then ['\'', '\''] else if c = '\\' then ['\\', '\\'] else if c.toNat < 128 then [c]
  else if c.toNat < 65536 then '\\' :: hexDigits c.toNat 4 else '\\' :: '+' :: hexDigits c.toNat 6

-- The escapes of a literal depend on what stands in front of its quote.
def Literal.ofMarked (s : MarkedString) : Literal :=
  let body := match s.mark with
    | .escaped => s.value.toList.flatMap backslashed
    | .unicode => s.value.toList.flatMap codePointed
    | _ => s.value.toList
  other (s.mark.text ++ s.opening ++ .ofList body ++ s.closing)

def Literal.text : Literal → String
  | number n long => if long then n ++ "L" else n
  | string s => quotedText '\'' s
  | boolean b => if b then "true" else "false"
  | null => "NULL"
  | other s => s

inductive BinaryOp where
  | eq | notEq | lt | ltEq | gt | gtEq | and | or | plus | minus | multiply | divide | modulo | concat
  | other (text : String)
  deriving DecidableEq, Repr

def BinaryOp.text : BinaryOp → String
  | eq => "=" | notEq => "<>" | lt => "<" | ltEq => "<=" | gt => ">" | gtEq => ">=" | and => "AND" | or => "OR"
  | plus => "+" | minus => "-" | multiply => "*" | divide => "/" | modulo => "%" | concat => "||"
  | other s => s

inductive UnaryOp where
  | not | minus | plus
  | other (text : String)
  deriving DecidableEq, Repr

def UnaryOp.text : UnaryOp → String
  | not => "NOT" | minus => "-" | plus => "+" | other s => s

-- What stands between the parentheses of a call.
inductive CallForm where
  | bare
  | subquery (text : String)
  | arguments
  deriving DecidableEq, Repr

-- A call without its arguments. All parts but the name are optional and kept as they are written. A braced call
-- stands between braces behind the word `fn`.
structure CallHead where
  name : ObjectName
  parameters : Option String := none
  form : CallForm := .arguments
  duplicates : Option String := none
  clauses : List String := []
  withinGroup : Option String := none
  filter : Option String := none
  nulls : Option String := none
  window : Option String := none
  braced : Bool := false
  deriving DecidableEq, Repr

-- How far an expression that is kept as text can be told apart: a path into a value such as `a[1].b`, a query in
-- parentheses, or anything else.
inductive PhraseKind where
  | access | subquery | other
  deriving DecidableEq, Repr

-- Scalar syntax. `phrase` is an expression that a join tree has no node for and `argument` a call argument
-- that is no plain expression; of both, only the canonical text is kept.
inductive Expr where
  | ident (i : Ident)
  | compound (parts : List Ident)
  | literal (l : Literal)
  | binary (left : Expr) (op : BinaryOp) (right : Expr)
  | unary (op : UnaryOp) (e : Expr)
  | nested (e : Expr)
  | isNull (e : Expr)
  | isNotNull (e : Expr)
  | between (e : Expr) (negated : Bool) (low high : Expr)
  | call (head : CallHead) (args : List Expr)
  | tuple (items : List Expr)
  | argument (text : String)
  | phrase (kind : PhraseKind) (text : String)
  deriving Repr, Inhabited

def commaSeparated (items : List String) : String := ", ".intercalate items

namespace CallHead

def argumentText (h : CallHead) (args : List String) : String :=
  match h.form with
  | .bare => ""
  | .subquery s => s!"({s})"
  | .arguments =>
    let items := (h.duplicates.map (· ++ " ")).getD "" ++ commaSeparated args
    let clauses := " ".intercalate h.clauses
    let gap := if h.clauses.isEmpty || args.isEmpty then "" else " "
    s!"({items}{gap}{clauses})"

def text (h : CallHead) (args : List String) : String :=
  let part (opening : String) (s : Option String) (closing : String) :=
    match s with
    | none => ""
    | some s => opening ++ s ++ closing
  (if h.braced then "\x7bfn " else "") ++ h.name.text ++ h.parameters.getD "" ++ h.argumentText args ++
    part " WITHIN GROUP (ORDER BY " h.withinGroup ")" ++ part " FILTER (WHERE " h.filter ")" ++ part " " h.nulls "" ++
    part " OVER " h.window "" ++ (if h.braced then "\x7d" else "")

end CallHead

namespace Expr

mutual
def text : Expr → String
  | ident i => i.text
  | compound parts => ".".intercalate (parts.map Ident.text)
  | literal l => l.text
  | binary l op r => s!"{l.text} {op.text} {r.text}"
  | unary .not e => s!"NOT {e.text}"
  | unary op e => op.text ++ e.text
  | nested e => s!"({e.text})"
  | isNull e => s!"{e.text} IS NULL"
  | isNotNull e => s!"{e.text} IS NOT NULL"
  | between e negated low high =>
    e.text ++ (if negated then " NOT" else "") ++ s!" BETWEEN {low.text} AND {high.text}"
  | call h args => h.text (texts args)
  | tuple items => s!"({commaSeparated (texts items)})"
  | argument s => s
  | phrase _ s => s
def texts : List Expr → List String
  | [] => []
  | e :: es => e.text :: texts es
end

theorem texts_eq_map (es : List Expr) : texts es = es.map text := by
  induction es with
  | nil => rfl
  | cons e es ih => simp [texts, ih]

-- Parentheses around the whole expression carry no meaning.
def unnested : Expr → Expr
  | nested e => e.unnested
  | e => e

def other (text : String) : Expr := .phrase .other text

def isSubquery : Expr → Bool
  | phrase .subquery _ => true
  | _ => false

end Expr

end JoinTree.Sql
