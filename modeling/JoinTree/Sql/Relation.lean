import JoinTree.Sql.Expr

namespace JoinTree.Sql

structure TableAlias where
  name : Ident
  explicit : Bool
  columns : List String := []
  deriving DecidableEq, Repr

def TableAlias.text (a : TableAlias) : String :=
  (if a.explicit then "AS " else "") ++ a.name.text ++
    (if a.columns.isEmpty then "" else s!" ({commaSeparated a.columns})")

inductive JoinOperator where
  | join | inner | left | leftOuter | right | rightOuter | fullOuter | cross
  | semi | leftSemi | rightSemi | anti | leftAnti | rightAnti | straight
  | crossApply | outerApply
  | asOf (matchCondition : Expr)
  deriving Repr

inductive JoinConstraint where
  | on (e : Expr)
  | using (columns : List ObjectName)
  | natural
  | none
  deriving Repr

structure JoinHead where
  global : Bool
  operator : JoinOperator
  constraint : JoinConstraint
  deriving Repr

def JoinHead.text (h : JoinHead) (relation : String) : String :=
  let natural := match h.constraint with | .natural => "NATURAL " | _ => ""
  let constraint := match h.constraint with
    | .on e => s!" ON {e.text}"
    | .using columns => s!" USING({commaSeparated (columns.map ObjectName.text)})"
    | _ => ""
  let plain (keywords : String) := s!"{natural}{keywords} {relation}{constraint}"
  (if h.global then "GLOBAL " else "") ++
  match h.operator with
  | .join => plain "JOIN" | .inner => plain "INNER JOIN"
  | .left => plain "LEFT JOIN" | .leftOuter => plain "LEFT OUTER JOIN"
  | .right => plain "RIGHT JOIN" | .rightOuter => plain "RIGHT OUTER JOIN"
  | .fullOuter => plain "FULL JOIN"
  | .semi => plain "SEMI JOIN" | .leftSemi => plain "LEFT SEMI JOIN" | .rightSemi => plain "RIGHT SEMI JOIN"
  | .anti => plain "ANTI JOIN" | .leftAnti => plain "LEFT ANTI JOIN" | .rightAnti => plain "RIGHT ANTI JOIN"
  | .cross => s!"CROSS JOIN {relation}{constraint}" | .straight => s!"STRAIGHT_JOIN {relation}{constraint}"
  | .crossApply => s!"CROSS APPLY {relation}" | .outerApply => s!"OUTER APPLY {relation}"
  | .asOf e => s!"ASOF JOIN {relation} MATCH_CONDITION ({e.text}){constraint}"

-- A table with what the text adds to its name. `start` is where the name begins.
structure TableReference where
  name : ObjectName
  start : Location
  afterName : String := ""
  arguments : Option String := none
  beforeAlias : String := ""
  asName : Option TableAlias := none
  afterAlias : String := ""
  deriving Repr

def TableReference.text (t : TableReference) : String :=
  t.name.text ++ t.afterName ++ (t.arguments.map (s!"({·})")).getD "" ++ t.beforeAlias ++
    (t.asName.map (" " ++ ·.text)).getD "" ++ t.afterAlias

-- A derived table or the like, of which only the canonical text is kept. `start` is where it begins behind its opening
-- parentheses, if a query stands there.
structure TablePhrase where
  text : String
  asName : Option TableAlias := none
  afterAlias : String := ""
  start : Option Location := none
  deriving Repr

def TablePhrase.fullText (p : TablePhrase) : String :=
  p.text ++ (p.asName.map (" " ++ ·.text)).getD "" ++ p.afterAlias

-- Table syntax.
mutual
inductive TableFactor where
  | table (t : TableReference)
  | nested (relation : TableFactor) (joins : List Join) (asName : Option TableAlias)
  | phrase (p : TablePhrase)
inductive Join where
  | mk (head : JoinHead) (right : TableFactor)
end

instance : Inhabited TableFactor := ⟨.phrase ⟨"", none, "", none⟩⟩

namespace Join

def head : Join → JoinHead
  | mk h _ => h
def right : Join → TableFactor
  | mk _ r => r

end Join

-- One entry of a FROM list.
structure FromEntry where
  relation : TableFactor
  joins : List Join

mutual
def TableFactor.text : TableFactor → String
  | .table t => t.text
  | .nested relation joins asName =>
    s!"({relation.text}{Join.followingText joins})" ++ (asName.map (" " ++ ·.text)).getD ""
  | .phrase p => p.fullText
def Join.text : Join → String
  | .mk h right => h.text right.text
def Join.followingText : List Join → String
  | [] => ""
  | j :: js => " " ++ j.text ++ Join.followingText js
end

-- The place of the first word of a relation, behind its opening parentheses.
def TableFactor.start? : TableFactor → Option Location
  | .table t => some t.start
  | .nested relation _ _ => relation.start?
  | .phrase p => p.start

-- The joins of a relation from left to right, those inside of a right relation behind the join itself.
mutual
def TableFactor.joins : TableFactor → List Join
  | .nested relation joins _ => relation.joins ++ Join.throughout joins
  | .table _ | .phrase .. => []
def Join.throughout : List Join → List Join
  | [] => []
  | .mk head right :: js => .mk head right :: (right.joins ++ Join.throughout js)
end

def FromEntry.text (e : FromEntry) : String := e.relation.text ++ Join.followingText e.joins

inductive QueryBody where
  | select (entries : List FromEntry)
  | parenthesised
  | other (text : String)

-- A query. Only the FROM clause of a plain SELECT has a structure of its own.
structure Query where
  text : String
  start : Option Location
  body : QueryBody

-- The joins of its FROM clause.
def Query.joins (q : Query) : List Join :=
  match q.body with
  | .select entries => entries.flatMap fun e => e.relation.joins ++ Join.throughout e.joins
  | .parenthesised | .other _ => []

-- A statement. One that is no query changes or explains something.
inductive Statement where
  | query (q : Query)
  | command
  | explanation

def Statement.joins : Statement → List Join
  | .query q => q.joins
  | .command | .explanation => []

end JoinTree.Sql
