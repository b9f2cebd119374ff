import JoinTree.Sql.Grammar

/-!
Set operations. UNION and its like bind more loosely than INTERSECT.
-/

namespace JoinTree.Sql

def Keyword.setLevel : Keyword → Nat
  | .UNION | .EXCEPT | .MINUS => 10
  | .INTERSECT => 20
  | _ => 0

namespace Reading

-- What becomes of equal rows.
def setQuantifier : Reading (Option String) :=
  firstOf [
    worded? [.DISTINCT, .BY, .NAME] nothing, worded? [.BY, .NAME] nothing, worded? [.ALL, .BY, .NAME] nothing,
    worded? [.ALL] nothing, worded? [.DISTINCT] nothing]
where
  nothing : Reading String := pure ""

end Reading

end JoinTree.Sql
