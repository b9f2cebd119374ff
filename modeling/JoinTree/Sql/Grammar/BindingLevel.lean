import JoinTree.Sql.Grammar

/-!
How tightly operators bind. A higher level binds tighter; level 0 stands for no operator at all.
-/

namespace JoinTree.Sql

namespace BindingLevel

def path : Nat := 100
def cast : Nat := 50
def timeZone : Nat := 41
def product : Nat := 40
def sum : Nat := 30
def xor : Nat := 24
def bitAnd : Nat := 23
def shift : Nat := 22
def bitOr : Nat := 21
def comparison : Nat := 20
def like : Nat := 19
def test : Nat := 17
def arrow : Nat := 16
def negation : Nat := 15
def conjunction : Nat := 10
def disjunction : Nat := 5

-- A colon in front of a string or a number separates a key from its value.
def ofColon (d : Dialect) : Option Token → Nat
  | some (.string _) | some (.number ..) => if d.hasPathAccess then cast else 0
  | _ => if d.hasPathAccess then cast else bitOr

def ofSymbol (d : Dialect) (next : Option Token) : Symbol → Nat
  | .period => path
  | .doubleColon | .bang | .lbracket | .caretAt => cast
  | .colon => ofColon d next
  | .mul | .div | .intDiv | .mod | .concat => product
  | .plus | .minus => sum
  | .ampersand => bitAnd
  | .caret | .sharp | .shiftRight | .shiftLeft => shift
  | .pipe | .overlap | .atSign => bitOr
  | .assignment | .eq | .lt | .ltEq | .neq | .gt | .gtEq | .doubleEq | .tilde | .tildeStar | .bangTilde
  | .bangTildeStar | .doubleTilde | .doubleTildeStar | .bangDoubleTilde | .bangDoubleTildeStar | .spaceship => comparison
  | .arrow | .longArrow | .hashArrow | .hashLongArrow | .atArrow | .arrowAt | .hashMinus | .atQuestion | .atAt => arrow
  | _ => 0

def ofPattern : Keyword → Nat
  | .IN | .BETWEEN => comparison
  | .LIKE | .ILIKE | .RLIKE | .REGEXP | .MATCH | .SIMILAR | .MEMBER => like
  | _ => 0

def ofKeyword (m : Mode) (following : List (Option Keyword)) : Keyword → Nat
  | .OR => disjunction | .AND => conjunction | .XOR => xor
  | .AT => if following.take 2 = [some .TIME, some .ZONE] then timeZone else 0
  | .NOT => match following with
    | some .NULL :: _ => if m = .column then 0 else test
    | some k :: _ => ofPattern k
    | _ => 0
  | .IS => test
  | .OVERLAPS | .OPERATOR => comparison
  | .DIV => product
  | k => ofPattern k

-- How tightly the operator binds that the text starts with, 0 if it starts with none.
def ahead (g : Grammar) (ls : List Lexeme) : Nat :=
  match ls with
  | [] => 0
  | l :: rest =>
    match l.token with
    | .symbol s => ofSymbol g.dialect (rest.head?.map (·.token)) s
    | .word _ _ (some k) => ofKeyword g.mode ((rest.take 2).map (·.token.keyword?)) k
    | _ => 0

end BindingLevel

end JoinTree.Sql
