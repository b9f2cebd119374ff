import JoinTree.Clause
import JoinTree.Tree.Dump

namespace JoinTree

-- A part of a query that a tree has no node for, or a node that has no text.
inductive Construct where
  | binaryOperator (text : String) | unaryOperator (text : String)
  | windowFunction (text : String) | aggregateClause (text : String) | subqueryArgument (text : String)
  | argumentModifiers (text : String) | functionArgument (text : String)
  | expression (text : String) | numericLiteral (text : String) | literal (text : String)
  | tableFunction (name : String) | columnAliases (table : String) | joinAlias (name : String)
  | tableExpression (text : String) | parenthesisedBody | queryBody (text : String)
  | floatConstant (bits : UInt64) | runtimeFilter (id : UInt64) | usingRuntimeFilter (id : UInt64)
  | tableAsScalar (text : String)
  deriving DecidableEq, Repr

private def nonFiniteText (bits : UInt64) : String :=
  if Binary64.isNaN bits then "NaN" else if Binary64.isNegative bits then "-inf" else "inf"

def Construct.text : Construct → String
  | binaryOperator s => s!"binary operator '{s}'" | unaryOperator s => s!"unary operator '{s}'"
  | windowFunction s => s!"window function '{s}'" | aggregateClause s => s!"aggregate clause in '{s}'"
  | subqueryArgument s => s!"subquery argument in '{s}'" | argumentModifiers s => s!"argument modifiers in '{s}'"
  | functionArgument s => s!"function argument '{s}'" | expression s => s!"expression '{s}'"
  | numericLiteral s => s!"numeric literal '{s}'" | literal s => s!"literal '{s}'"
  | tableFunction s => s!"table function '{s}'" | columnAliases s => s!"column aliases on table '{s}'"
  | joinAlias s => s!"alias '{s}' on a parenthesised join" | tableExpression s => s!"table expression '{s}'"
  | parenthesisedBody => "parenthesised query body" | queryBody s => s!"query body '{s}' is not a plain SELECT"
  | floatConstant bits => s!"float constant {nonFiniteText bits}"
  | runtimeFilter id => s!"runtime filter {id.toNat} has no SQL representation"
  | usingRuntimeFilter id => s!"runtime filter {id.toNat} in USING list"
  | tableAsScalar s => s!"table expression '{s}' used as a scalar"

inductive StructureFault where
  | clause (defect : JoinClause.Defect)
  | noFrom
  | notSelect
  deriving DecidableEq, Repr

def StructureFault.text : StructureFault → String
  | clause d => d.text
  | noFrom => "SELECT has no FROM clause"
  | notSelect => "expected a SELECT statement"

-- A node where no node of its type can be.
inductive Misplaced where
  | tableSlot | unresolvableColumn | unwritableColumn
  deriving DecidableEq, Repr

def Misplaced.text (t : NodeType) : Misplaced → String
  | tableSlot => s!"{t.text} node in a table expression slot"
  | unresolvableColumn => s!"{t.text} node in a USING list"
  | unwritableColumn => s!"unexpected {t.text} node in USING list"

inductive AnalysisError where
  | structural (fault : StructureFault)
  | unsupported (construct : Construct)
  | unknownTable (name : String)
  | unresolved (identifier scope : String)
  | ambiguous (identifier : String) (candidates : List String)
  | misplaced (fault : Misplaced) (type : NodeType) (dump : String)
  | sql (error : Sql.Error)
  deriving DecidableEq, Repr

def AnalysisError.message : AnalysisError → String
  | structural fault => s!"[AE001] Invalid query structure: {fault.text}"
  | unsupported construct => s!"[AE002] Unsupported construct: {construct.text}"
  | unknownTable name => s!"[AE003] Unknown table '{name}'"
  | unresolved identifier scope => s!"[AE004] Cannot resolve identifier '{identifier}' in {scope}"
  | ambiguous identifier candidates =>
    s!"[AE005] Identifier '{identifier}' is ambiguous, candidates: " ++ ", ".intercalate candidates
  | misplaced fault type dump => s!"[AE006] Logical error: {fault.text type}\n{dump}"
  | sql error => s!"[AE007] SQL error: {error.message}"

def Node.misplaced (n : Node) (fault : Misplaced) : AnalysisError := .misplaced fault n.type n.dump

end JoinTree
