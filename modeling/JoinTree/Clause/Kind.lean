namespace JoinTree

-- Where the right side of a join is read when the query runs on several shards.
inductive Locality where
  | unspecified | global | perShard
  deriving DecidableEq, Repr, Inhabited

-- How many matching rows take part in a join.
inductive Strictness where
  | unspecified | all | any | asof | semi | anti
  deriving DecidableEq, Repr, Inhabited

inductive JoinKind where
  | inner | left | right | full | cross | comma | paste
  deriving DecidableEq, Repr, Inhabited

def Locality.text : Locality → String
  | unspecified => "UNSPECIFIED" | global => "GLOBAL" | perShard => "LOCAL"

def Strictness.text : Strictness → String
  | unspecified => "UNSPECIFIED" | all => "ALL" | any => "ANY" | asof => "ASOF" | semi => "SEMI" | anti => "ANTI"

-- Semi and anti joins only filter the rows of one side.
def Strictness.isFiltering : Strictness → Bool
  | semi | anti => true | _ => false

namespace JoinKind

def text : JoinKind → String
  | inner => "INNER" | left => "LEFT" | right => "RIGHT" | full => "FULL" | cross => "CROSS" | comma => "COMMA"
  | paste => "PASTE"

-- These kinds never have a condition.
def isUnconditional : JoinKind → Bool
  | cross | comma | paste => true | _ => false

def isOuter : JoinKind → Bool
  | left | right | full => true | _ => false

end JoinKind

end JoinTree
