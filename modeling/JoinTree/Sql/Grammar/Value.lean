import JoinTree.Sql.Grammar

/-!
Literals and numbers.
-/

namespace JoinTree.Sql.Reading

-- The name of a placeholder has to follow its mark at once.
private def placeholder (mark : Lexeme) : Reading Literal := do
  let found ← nextOrBlank? mark
  let name ← match found.map Lexeme.token with
    | some (.word v _ _) => pure v
    | some (.number n false) => pure n
    | _ => throw (.expected "placeholder" found)
  skip
  return .other (mark.token.text ++ name)

def literal : Reading Literal := do
  let some l ← next? | expected "a value"
  match l.token with
  | .word v q k =>
    match k, q with
    | some .TRUE, _ => skip; return .boolean true
    | some .FALSE, _ => skip; return .boolean false
    | some .NULL, _ => skip; return .null
    | none, some '"' => skip; return .other (quotedText '"' v)
    | none, some _ => expected "A value?"
    | _, _ => expected "a concrete value"
  | .number n long => skip; return .number n long
  | .string s => skip; return .string s
  | .marked s => skip; return .ofMarked s
  | .dollarString .. => skip; return .other l.token.text
  | .placeholder s => skip; return .other s
  | .symbol .colon | .symbol .atSign => skip; placeholder l
  | _ => expected "a value"

def literalText : Reading String := Literal.text <$> literal

-- A number or a placeholder.
def numberText : Reading String := do
  let front ← next?
  match ← literal with
  | .number n long => return (Literal.number n long).text
  | l => do
    match front.map Lexeme.token with
    | some (.placeholder _) | some (.symbol _) => return l.text
    | _ => throw (.expected "literal number" front)

def signedNumberText : Reading String := do
  if ← symbol? .plus then return s!"+{← numberText}"
  if ← symbol? .minus then return s!"-{← numberText}"
  numberText

private def notInRange (s type fault : String) (place : Option Location) : SyntaxError :=
  .refused s!"Could not parse '{s}' as {type}: {fault}" place

-- The value of a numeral below a bound, `type` being the name of the range.
private def naturalBelow (bound : Nat) (type s : String) (place : Option Location) : Reading Nat :=
  match Text.natural? s.toList with
  | none => throw (notInRange s type "invalid digit found in string" place)
  | some n => if n < bound then pure n else throw (notInRange s type "number too large to fit in target type" place)

def naturalNumber : Reading Nat := do
  let place ← place?
  naturalBelow (1 <<< 64) "u64" (← tokenOf "literal int" fun | .number s _ => some s | _ => none) place

def smallNumber (digits : String) (place : Option Location) : Reading Nat := naturalBelow (1 <<< 32) "u32" digits place

def integer : Reading Int := do
  let negative ← symbol? .minus
  unless negative do discard (symbol? .plus)
  let place ← place?
  let n ← naturalBelow (1 <<< 63) "i64" (← tokenOf "number" fun | .number s _ => some s | _ => none) place
  return if negative then -(n : Int) else n

-- A length in parentheses, empty if there is none.
def optionalLength : Reading String := do
  if ← symbolAhead .lparen then return s!"({← parenthesised naturalNumber})" else return ""

def literalString (d : Dialect) : Reading String :=
  tokenOf "literal string" fun t =>
    match t with
    | .string s => some s
    | .marked s => if s.mark = .unicode || (s.mark = .escaped && d.isGeneric) then some s.value else none
    | .word v _ _ => if t.isFreeWord then some v else none
    | _ => none

end JoinTree.Sql.Reading
