import JoinTree.Text.Line
import JoinTree.Tree.Error

/-!
What a tree looks like as SQL. Operators come back as operators; parentheses go where an operand would otherwise be
read as part of something else.
-/

namespace JoinTree

open Sql

inductive Surface where
  | expr (e : Expr)
  | list (items : List Surface)
  | table (name : String) (asName : Option String)
  | join (left : Surface) (clause : JoinClause) (right : Surface)
  deriving Repr, Inhabited

namespace Surface

private def isJoin : Surface → Bool
  | join .. => true
  | _ => false

private def isComma : Surface → Bool
  | join _ c _ => c.kind = .comma
  | _ => false

-- A join on the right stands in parentheses, and a comma on the left of a join with keywords, which would bind its
-- last entry.
mutual
def text : Surface → String
  | expr e => e.text
  | list items => ", ".intercalate (texts items)
  | table name asName => name ++ (asName.map fun a => s!" AS {a}").getD ""
  | join l c r =>
    let right := if isJoin r then s!"({r.text})" else r.text
    if c.kind = .comma then s!"{l.text}, {right}"
    else
      let left := if isComma l then s!"({l.text})" else l.text
      s!"{left} {c.keywords} {right}{c.constraint}"
def texts : List Surface → List String
  | [] => []
  | s :: ss => s.text :: texts ss
end

-- As a scalar a list is a tuple, and a table is nothing.
mutual
def toExpr : Surface → Except AnalysisError Expr
  | expr e => .ok e
  | list items => do return .tuple (← toExprs items)
  | s@(table ..) | s@(join ..) => .error (.unsupported (.tableAsScalar s.text))
def toExprs : List Surface → Except AnalysisError (List Expr)
  | [] => .ok []
  | s :: ss => do return (← s.toExpr) :: (← toExprs ss)
end

end Surface

-- Operators and the functions they stand for.

def operatorFunctions : List (BinaryOp × String) := [
  (.eq, "equals"), (.notEq, "notEquals"), (.lt, "less"), (.ltEq, "lessOrEquals"), (.gt, "greater"),
  (.gtEq, "greaterOrEquals"), (.and, "and"), (.or, "or"), (.plus, "plus"), (.minus, "minus"), (.multiply, "multiply"),
  (.divide, "divide"), (.modulo, "modulo"), (.concat, "concat")]

def functionOf? (op : BinaryOp) : Option String := operatorFunctions.lookup op

def operatorOf? (name : String) : Option BinaryOp := (operatorFunctions.find? (·.2 = name)).map (·.1)

-- An operand that is an operation itself.
def operand : Expr → Expr
  | .binary l op r => .nested (.binary l op r)
  | e => e

-- Two minus signs in a row would open a comment.
def negatedOperand (e : Expr) : Expr :=
  match e with
  | .unary .. => .nested e
  | .literal (.number digits _) => if digits.toList.head? = some '-' then .nested e else e
  | e => operand e

-- The call of a function, by an operator where there is one.
def applied (name : String) (args : List Expr) : Expr :=
  let plain := Expr.call { name := .ofIdents [⟨name, none⟩] } args
  match args with
  | [l, r] =>
    match operatorOf? name with
    | some op => .binary (operand l) op (operand r)
    | none => plain
  | [e] =>
    if name = "isNull" then .isNull (operand e)
    else if name = "isNotNull" then .isNotNull (operand e)
    else if name = "not" then .unary .not (operand e)
    else if name = "negate" then .unary .minus (negatedOperand e)
    else plain
  | _ => plain

namespace Node

-- The name by which a USING list shows an entry.
def usingName (n : Node) : Except AnalysisError Ident :=
  match n with
  | .identifier parts =>
    if Identifier.isCompound parts then .error (n.misplaced .unwritableColumn) else .ok ⟨Identifier.short parts, none⟩
  | .column name _ _ => .ok ⟨name, none⟩
  | .runtimeFilter id _ => .error (.unsupported (.usingRuntimeFilter id))
  | _ => .error (n.misplaced .unwritableColumn)

def identExpr (parts : List String) : Expr :=
  match parts with
  | [name] => .ident ⟨name, none⟩
  | parts => .compound (parts.map (⟨·, none⟩))

mutual
def surface : Node → Except AnalysisError Surface
  | identifier parts => .ok (.expr (identExpr parts))
  | constant v =>
    match v with
    | .float bits =>
      if Binary64.isFinite bits then .ok (.expr (.literal v.literal)) else .error (.unsupported (.floatConstant bits))
    | v => .ok (.expr (.literal v.literal))
  | column name source _ =>
    match source with
    | .table label => .ok (.expr (.compound [⟨label, none⟩, ⟨name, none⟩]))
    | .using => .ok (.expr (.ident ⟨name, none⟩))
  | function name args =>
    match args with
    | .list nodes => do return .expr (applied name (← scalars' nodes))
    | _ => .ok (.expr (applied name []))
  | list nodes => do return .list (← surfaces nodes)
  | table name asName => .ok (.table name asName)
  | join spec l r e => do
    let left ← l.surface
    let clause ← clauseOf spec e
    return .join left clause (← r.surface)
  | runtimeFilter id _ => .error (.unsupported (.runtimeFilter id))
def surfaces : List Node → Except AnalysisError (List Surface)
  | [] => .ok []
  | n :: ns => do return (← n.surface) :: (← surfaces ns)
def scalars' : List Node → Except AnalysisError (List Expr)
  | [] => .ok []
  | n :: ns => do return (← (← n.surface).toExpr) :: (← scalars' ns)
-- The clause of a join with the given join expression.
def clauseOf (spec : JoinSpec) : Option Node → Except AnalysisError JoinClause
  | none => .ok { locality := spec.locality, strictness := spec.strictness, kind := spec.kind }
  | some (.list nodes) => do
    let columns ← nodes.mapM usingName
    return { locality := spec.locality, strictness := spec.strictness, kind := spec.kind, columns := some columns }
  | some e => do
    let condition ← (← e.surface).toExpr
    return { locality := spec.locality, strictness := spec.strictness, kind := spec.kind, condition := some condition }
end

-- The text of a tree, or the first line of its dump if it has none.
def text (n : Node) : String :=
  match n.surface with
  | .ok s => s.text
  | .error _ => .ofList (Text.firstLine n.dump.toList)

end Node

end JoinTree
