import JoinTree.Sql.Grammar.Alias
import JoinTree.Sql.Grammar.Expr

/-!
The joins behind a table expression.
-/

namespace JoinTree.Sql.Reading

inductive JoinForm where
  | unconstrained (op : JoinOperator)
  | asOf
  | constrained (op : JoinOperator) (natural : Bool)

def sided (side : Keyword) (bare outer semijoin antijoin : JoinOperator) : Reading JoinOperator := do
  match ← oneOf? [.OUTER, .SEMI, .ANTI, .JOIN] with
  | some .OUTER => keyword .JOIN; return outer
  | some .SEMI => keyword .JOIN; return semijoin
  | some .ANTI => keyword .JOIN; return antijoin
  | some _ => return bare
  | none => throw (.unfinishedJoin side)

-- The words of a join up to its right relation.
def joinForm? : Reading (Option JoinForm) := do
  if ← keyword? .CROSS then
    if ← keyword? .JOIN then return some (.unconstrained .cross)
    if ← keyword? .APPLY then return some (.unconstrained .crossApply)
    expected "JOIN or APPLY after CROSS"
  if ← keyword? .OUTER then
    keyword .APPLY
    return some (.unconstrained .outerApply)
  if ← keyword? .ASOF then
    keyword .JOIN
    return some .asOf
  let natural ← keyword? .NATURAL
  let form (p : Reading JoinOperator) : Reading (Option JoinForm) := do skip; return some (.constrained (← p) natural)
  let joining (op : JoinOperator) : Reading JoinOperator := do keyword .JOIN; return op
  match ← ahead? with
  | some .INNER => form (joining .inner)
  | some .JOIN => form (pure .join)
  | some .LEFT => form (sided .LEFT .left .leftOuter .leftSemi .leftAnti)
  | some .RIGHT => form (sided .RIGHT .right .rightOuter .rightSemi .rightAnti)
  | some .SEMI => form (joining .semi)
  | some .ANTI => form (joining .anti)
  | some .FULL => form do
    let _ ← keyword? .OUTER
    joining .fullOuter
  | some .OUTER => expected "LEFT, RIGHT, or FULL"
  | some .STRAIGHT_JOIN => form (pure .straight)
  | _ => if natural then expected "a join type after NATURAL" else return none

def constraint (g : Grammar) (natural : Bool) : Reading JoinConstraint := do
  if natural then return .natural
  if ← keyword? .ON then return .on (← g.expr)
  if ← keyword? .USING then return .using (← parenthesisedList (objectName g))
  return .none

-- Without a left-to-right rule a join whose constraint does not come next opens a join of its own on the right.
def joinsWithin (g : Grammar) : (n : Nat) → Reading (List Join)
  | 0 => return []
  | n + 1 => do
    let global ← keyword? .GLOBAL
    match ← joinForm? with
    | none => return []
    | some form =>
      let relation ← g.factor
      let join ← match form with
        | .unconstrained op => pure (Join.mk ⟨global, op, .none⟩ relation)
        | .asOf => do
          keyword .MATCH_CONDITION
          let condition ← parenthesised g.expr
          pure (Join.mk ⟨global, .asOf condition, ← constraint g false⟩ relation)
        | .constrained op natural => do
          let nests ← provided (!g.dialect.joinsLeftToRight) (anyAhead [.JOIN, .INNER, .LEFT, .RIGHT, .FULL])
          let relation ← if nests then do pure (.nested relation (← joinsWithin g n) none) else pure relation
          pure (Join.mk ⟨global, op, ← constraint g natural⟩ relation)
      return join :: (← joinsWithin g n)

def joins (g : Grammar) : Reading (List Join) := fun ls => joinsWithin g ls.length ls

def entry (g : Grammar) : Reading FromEntry := do
  let relation ← g.factor
  return ⟨relation, ← joins g⟩

def fromList (g : Grammar) : Reading (List FromEntry) :=
  separated (fun ls => g.dialect.hasTrailingTableCommas && endsAfterComma Dialect.endsTables ls) (entry g)

def entriesText (es : List FromEntry) : String := commaSeparated (es.map FromEntry.text)

end JoinTree.Sql.Reading
