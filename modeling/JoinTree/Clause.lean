import JoinTree.Sql.Error

/-!
The clause between two table expressions: its keywords, and an ON or USING constraint. Both constraints may be there,
so that a clause no join tree can hold is still a clause, which `validate` refuses.
-/

namespace JoinTree

open Sql

structure JoinClause where
  locality : Locality := .unspecified
  strictness : Strictness := .unspecified
  kind : JoinKind := .inner
  condition : Option Expr := none
  columns : Option (List Ident) := none
  deriving Repr, Inhabited

namespace JoinClause

-- The clause that a comma between two entries of a FROM list stands for.
def comma : JoinClause := { kind := .comma }

def hasConstraint (c : JoinClause) : Bool := c.condition.isSome || c.columns.isSome

-- Reading a join.

-- A USING column is a single name.
def columnOf (name : ObjectName) : Except JoinFault Ident :=
  match name.parts with
  | [.ident i] => .ok i
  | [.generated _] => .error (.computedColumn name.text)
  | _ => .error (.qualifiedColumn name.text)

def withConstraint (c : JoinClause) (join : String) : JoinConstraint → Except JoinFault JoinClause
  | .on e => .ok { c with condition := some e }
  | .using columns => do return { c with columns := some (← columns.mapM columnOf) }
  | .natural => .error (.natural join)
  | .none => .ok c

def topology? : JoinOperator → Option (JoinKind × Strictness)
  | .join | .inner => some (.inner, .unspecified)
  | .left | .leftOuter => some (.left, .unspecified)
  | .right | .rightOuter => some (.right, .unspecified)
  | .fullOuter => some (.full, .unspecified)
  | .cross => some (.cross, .unspecified)
  | .semi | .leftSemi => some (.left, .semi)
  | .rightSemi => some (.right, .semi)
  | .anti | .leftAnti => some (.left, .anti)
  | .rightAnti => some (.right, .anti)
  | .straight | .crossApply | .outerApply | .asOf _ => none

-- The clause of a join. The match condition of an ASOF join is the last conjunct of its condition.
def ofJoin (j : Join) : Except JoinFault JoinClause :=
  let h := j.head
  let locality : Locality := if h.global then .global else .unspecified
  match h.operator, h.constraint with
  | .asOf e, .on condition =>
    .ok { locality, strictness := .asof, condition := some (.binary condition .and e) }
  | .asOf e, .none => .ok { locality, strictness := .asof, condition := some e }
  | .asOf _, _ => .error (.asofConstraint j.text)
  | operator, constraint =>
    match topology? operator with
    | some (kind, strictness) => withConstraint { locality, strictness, kind } j.text constraint
    | none => .error (.operator j.text)

-- Writing a clause.

def localityText : Locality → String
  | .global => "GLOBAL " | .perShard => "LOCAL " | .unspecified => ""

def strictnessText : Strictness → String
  | .all => "ALL " | .any => "ANY " | .asof => "ASOF " | _ => ""

def kindText : JoinKind → Strictness → String
  | .left, _ => "LEFT " | .right, _ => "RIGHT " | .full, _ => "FULL OUTER "
  | .inner, s => if s.isFiltering || s = .asof then "" else "INNER "
  | _, _ => "INNER "

-- The words in front of the right table expression.
def keywords (c : JoinClause) : String :=
  match c.kind with
  | .comma => ","
  | .cross => localityText c.locality ++ "CROSS JOIN"
  | .paste => localityText c.locality ++ "PASTE JOIN"
  | kind =>
    localityText c.locality ++ strictnessText c.strictness ++ kindText kind c.strictness ++
      (if c.strictness.isFiltering then c.strictness.text ++ " " else "") ++ "JOIN"

-- The conjuncts in front of the last one of an ASOF condition, and the last one.
def splitMatchCondition (e : Expr) : Option Expr × Expr :=
  match e.unnested with
  | .binary left .and right => (some left.unnested, right.unnested)
  | e => (none, e)

def conditionText (c : JoinClause) (e : Expr) : String :=
  if c.strictness = .asof && c.kind = .inner then
    let (rest, last) := splitMatchCondition e
    s!" MATCH_CONDITION ({last.text})" ++ (rest.map fun e => s!" ON {e.text}").getD ""
  else s!" ON {e.text}"

-- The text behind the right table expression.
def constraint (c : JoinClause) : String :=
  (c.condition.map c.conditionText).getD "" ++
    (c.columns.map fun is => s!" USING ({commaSeparated (is.map Ident.text)})").getD ""

def text (c : JoinClause) : String := c.keywords ++ c.constraint

-- Clauses that a join tree can hold.

inductive Defect where
  | twoConstraints (kind : JoinKind)
  | noColumns (kind : JoinKind)
  | needlessConstraint (kind : JoinKind)
  | filteringKind (strictness : Strictness) (kind : JoinKind)
  | asofKind (kind : JoinKind)
  | missingConstraint (kind : JoinKind)
  deriving DecidableEq, Repr

def Defect.text : Defect → String
  | twoConstraints k => s!"{k.text} JOIN cannot have both ON and USING"
  | noColumns k => s!"{k.text} JOIN has an empty USING list"
  | needlessConstraint k => s!"{k.text} JOIN cannot have a join condition"
  | filteringKind s k => s!"{s.text} JOIN requires LEFT or RIGHT kind, got {k.text}"
  | asofKind k => s!"ASOF JOIN requires INNER or LEFT kind, got {k.text}"
  | missingConstraint k => s!"{k.text} JOIN requires an ON or USING condition"

-- The first defect of a clause, if it has one.
def defect? (c : JoinClause) : Option Defect :=
  if c.condition.isSome && c.columns.isSome then some (.twoConstraints c.kind)
  else if c.columns.any List.isEmpty then some (.noColumns c.kind)
  else if c.kind.isUnconditional && c.hasConstraint then some (.needlessConstraint c.kind)
  else if c.strictness.isFiltering && c.kind ≠ .left && c.kind ≠ .right then some (.filteringKind c.strictness c.kind)
  else if c.strictness = .asof && c.kind ≠ .inner && c.kind ≠ .left then some (.asofKind c.kind)
  else if !c.kind.isUnconditional && !c.hasConstraint then some (.missingConstraint c.kind)
  else none

end JoinClause

end JoinTree
