import JoinTree.Sql.Grammar.BindingLevel
import JoinTree.Sql.Grammar.Value

/-!
What may follow an operand at once: dotted names, subscripts, and paths into semi-structured values.
-/

namespace JoinTree.Sql.Reading

inductive PathStep where
  | name (i : Ident) | call (head : CallHead) (args : List Expr) | other (text : String)

def PathStep.text : PathStep → String
  | name i => "." ++ i.text
  | call h args => "." ++ h.text (args.map Expr.text)
  | other s => s

def PathStep.name? : PathStep → Option Ident
  | name i => some i
  | _ => none

-- A path of names alone is a dotted name, one that ends in a call is a call of a dotted name.
def followed (root : Expr) (steps : List PathStep) : Expr :=
  let asIs := Expr.phrase .access (root.text ++ String.join (steps.map PathStep.text))
  match root, steps with
  | root, [] => root
  | .ident i, steps =>
    match steps.mapM PathStep.name? with
    | some is => .compound (i :: is)
    | none =>
      match steps.getLast?, steps.dropLast.mapM PathStep.name? with
      | some (.call h args), some is =>
        .call { h with name := ⟨(i :: is).map .ident ++ h.name.parts⟩ } args
      | _, _ => asIs
  | _, _ => asIs

def member (g : Grammar) : Reading (List PathStep) := do
  match ← g.operand BindingLevel.path with
  | .ident i => return [.name i]
  | .compound is => return is.map .name
  | .literal l => return [.other ("." ++ l.text)]
  | .call h args => return [.call h args]
  | .phrase .access s => return [.other ("." ++ s)]
  | _ => expected "an identifier or value"

-- A place or a range in a sequence. A colon ends a bound.
private def subscript (g : Grammar) : Reading String := do
  let bound : Reading Expr := g.operand BindingLevel.bitOr
  symbol .lbracket
  let low ← if ← symbol? .colon then pure none else some <$> bound
  let lowText := (low.map Expr.text).getD ""
  if ← symbol? .rbracket then return (if low.isSome then s!"[{lowText}]" else "[:]")
  if low.isSome then symbol .colon
  if ← symbol? .rbracket then return s!"[{lowText}:]"
  let high ← bound
  if ← symbol? .rbracket then return s!"[{lowText}:{high.text}]"
  symbol .colon
  if ← symbol? .rbracket then return s!"[{lowText}:{high.text}]"
  let stride ← g.exprText
  symbol .rbracket
  return s!"[{lowText}:{high.text}:{stride}]"

def pathStep (g : Grammar) (steps : List PathStep) : Reading (Option (List PathStep)) := do
  if ← symbolAhead .period then
    if (← tokenAt? 1) = some (.symbol .mul) then return none
    skip
    match ← token? with
    | some (.string _) => return some (steps ++ [.name (← ident)])
    | some (.placeholder s) => skip; return some (steps ++ [.name ⟨s, none⟩])
    | _ => pure ()
    match ← attempt (member g) with
    | some more => return some (steps ++ more)
    | none => return some (steps ++ [.name (← ident)])
  else if !g.dialect.hasPathAccess && (← symbolAhead .lbracket) then return some (steps ++ [.other (← subscript g)])
  else return none

def outerMark : List Token := [.symbol .lparen, .symbol .plus, .symbol .rparen]

def outerMarkAhead (d : Dialect) : Reading Bool := fun ls =>
  .ok (d.hasPathAccess && (ls.take 3).map (·.token) = outerMark, ls)

-- The path behind `root`, which was read from `ls`. Only a dotted name may be marked as the outer side of a join.
def pathFrom (g : Grammar) (ls : List Lexeme) (root : Expr) : Reading Expr := do
  let e := followed root (← iterate (pathStep g) [])
  if ← outerMarkAhead g.dialect then
    let rest ← get
    match e with
    | .ident _ | .compound _ => skip; skip; skip; return .other s!"{e.text} (+)"
    | _ => throw (.expected "column identifier before (+)" (ls.take (ls.length - rest.length)).getLast?)
  return e

-- A path into a semi-structured value, such as `v:a.b[0]`.
def valuePath (g : Grammar) : Reading String := do
  let key : Reading String := tokenOf "variant object key name" fun
    | .word v none _ => some v
    | .word v (some '"') _ => some (quotedText '"' v)
    | _ => none
  iterate (fun text => do
    if ← provided (text = "") (symbol? .colon) then return some s!":{← key}"
    if ← provided (text ≠ "") (symbol? .period) then return some s!"{text}.{← key}"
    if ← symbol? .lbracket then
      let e ← g.exprText
      symbol .rbracket
      return some s!"{text}[{e}]"
    return none) ""

end JoinTree.Sql.Reading
