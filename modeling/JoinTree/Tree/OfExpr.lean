import JoinTree.Tree.Surface

/-!
Scalar trees of expressions. Operators become functions, and parentheses are dropped: the shape of the tree carries
precedence.
-/

namespace JoinTree

open Sql

def Constant.ofLiteral (l : Literal) : Except AnalysisError Constant :=
  match ofLiteral? l with
  | some c => .ok c
  | none =>
    match l with
    | .number digits _ => .error (.unsupported (.numericLiteral digits))
    | l => .error (.unsupported (.literal l.text))

namespace Node

-- The first part of a call that a function node has no place for.
def callObstacle? (h : CallHead) (args : List Expr) : Option Construct :=
  let text := (Expr.call h args).text
  if h.window.isSome then some (.windowFunction text)
  else if h.filter.isSome || h.withinGroup.isSome then some (.aggregateClause text)
  else match h.form with
    | .bare => none
    | .subquery _ => some (.subqueryArgument text)
    | .arguments => if h.duplicates.isSome || !h.clauses.isEmpty then some (.argumentModifiers text) else none

-- A value between two bounds, or outside of them.
def between (negated : Bool) (value low high : Node) : Node :=
  if negated then call "or" [call "less" [value, low], call "greater" [value, high]]
  else call "and" [call "greaterOrEquals" [value, low], call "lessOrEquals" [value, high]]

-- A minus sign in front of a numeral is part of the constant, if 64 bits hold that.
def negatedLiteral? : Expr → Except AnalysisError (Option Constant)
  | .literal l => do return (← Constant.ofLiteral l).negated?
  | _ => .ok none

mutual
def ofExpr : Expr → Except AnalysisError Node
  | .ident i => .ok (ident i.value)
  | .compound parts => .ok (identifier (parts.map Ident.value))
  | .literal l => do return constant (← Constant.ofLiteral l)
  | .binary l op r =>
    match functionOf? op with
    | none => .error (.unsupported (.binaryOperator op.text))
    | some name => do return call name [← ofExpr l, ← ofExpr r]
  | .unary op e =>
    match op with
    | .plus => ofExpr e
    | .minus => do
      match ← negatedLiteral? e with
      | some c => return constant c
      | none => return call "negate" [← ofExpr e]
    | .not => do return call "not" [← ofExpr e]
    | .other s => .error (.unsupported (.unaryOperator s))
  | .nested e => ofExpr e
  | .isNull e => do return call "isNull" [← ofExpr e]
  | .isNotNull e => do return call "isNotNull" [← ofExpr e]
  | .between e negated low high => do return between negated (← ofExpr e) (← ofExpr low) (← ofExpr high)
  | .call h args =>
    match callObstacle? h args with
    | some construct => .error (.unsupported construct)
    | none => do return call h.name.text (← ofArguments args)
  | e => .error (.unsupported (.expression e.text))
-- An argument that is no plain expression, such as a named one, has no node.
def ofArguments : List Expr → Except AnalysisError (List Node)
  | [] => .ok []
  | .argument s :: _ => .error (.unsupported (.functionArgument s))
  | e :: es => do return (← ofExpr e) :: (← ofArguments es)
end

-- The tree of the expression that a text starts with.
def ofExprText (d : Dialect) (sql : String) : Except AnalysisError Node := do
  ofExpr (← (parseExpr d sql).mapError .sql)

end Node

end JoinTree
