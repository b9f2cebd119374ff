import JoinTree.Sql.Dialect
import JoinTree.Sql.Token.Literal
import JoinTree.Text.Blank

/-!
Reading tokens. A step names the token that the text starts with and how many characters it takes; the scan gives
every token the stretch of text that it was read from, blanks included.
-/

namespace JoinTree.Sql.Token

-- A step's answer: the token and the number of characters after its first one, or a fault and the number of
-- characters in front of the place it is reported at.
abbrev Step := Except (LexicalFault × Nat) (Token × Nat)

-- A comment to the end of the line takes the line end with it.
def lineComment (mark : String) (cs : List Char) : Step :=
  let line := cs.takeWhile (· ≠ '\n')
  let body := if line.length < cs.length then line ++ ['\n'] else line
  .ok (.blank (.lineComment mark (.ofList body)), mark.length - 1 + body.length)

-- Digits with separators: an underscore counts if a hexadecimal digit follows it.
def digitRun (separators : Bool) (isDigit : Char → Bool) : List Char → List Char
  | [] => []
  | c :: cs =>
    let joins := separators && c = '_' && (cs.head?.map fun c => (hexValue? c).isSome).getD false
    if isDigit c || joins then c :: digitRun separators isDigit cs else []

def exponent (cs : List Char) : List Char :=
  match cs with
  | e :: cs =>
    if e = 'e' || e = 'E' then
      let (sign, digits) := match cs with
        | '+' :: cs => (['+'], cs) | '-' :: cs => (['-'], cs) | _ => ([], cs)
      match digits.takeWhile Char.isDigit with
      | [] => []
      | ds => e :: sign ++ ds
    else []
  | [] => []

-- `cs` starts with a digit or a period.
def numeral (d : Dialect) (prev : Option Token) (cs : List Char) : Step :=
  if cs.take 2 = ['.', '_'] then
    match prev with
    | some (.word ..) => .ok (.symbol .period, 0)
    | _ => .error (.underscoreAfterPeriod, 0)
  else
    let run := digitRun d.hasDigitSeparators
    let whole := run Char.isDigit cs
    let rest := cs.drop whole.length
    if whole = ['0'] && rest.head? = some 'x' then
      let hex := run (fun c => (hexValue? c).isSome) rest.tail
      .ok (.marked ⟨.hex, .ofList hex, "'", "'"⟩, hex.length + 1)
    else
      let fraction := if rest.head? = some '.' then '.' :: run Char.isDigit rest.tail else []
      if whole ++ fraction = ['.'] then .ok (.symbol .period, 0)
      else
        let tail := rest.drop fraction.length
        let digits := whole ++ fraction ++ exponent tail
        let long := (cs.drop digits.length).head? = some 'L'
        .ok (.number (.ofList digits) long, digits.length - 1 + (if long then 1 else 0))

def bareWord (d : Dialect) (opening cs : List Char) : Step :=
  let more := cs.takeWhile d.continuesName
  .ok (.ofWord (.ofList (opening ++ more)), opening.length + more.length - 1)

def ofMarked (mark : StringMark) (quotes : List Char) (value : List Char) : Token :=
  .marked { mark, value := .ofList value, opening := .ofList quotes }

-- A literal whose quote comes `front` characters after its first one; `cs` starts behind that quote.
def markedString (mark : StringMark) (front : Nat) (quote : Char) (escapes : Bool) (cs : List Char) : Step :=
  match quotedBody quote escapes cs with
  | some (s, n) => .ok (ofMarked mark [quote] s, front + n)
  | none => .error (.unterminatedString, front)

-- A raw literal has one quote or three on either side; `cs` starts behind the first one. Two quotes are an empty one.
def rawString (quote : Char) (cs : List Char) : Step :=
  match (cs.take 2).takeWhile (· = quote) with
  | [] =>
    match quotedBody quote false cs with
    | some (s, n) => .ok (ofMarked .raw [quote] s, n + 1)
    | none => .error (.unterminatedString, 2)
  | [_] => .ok (ofMarked .raw [quote] [], 2)
  | _ =>
    match tripledBody quote (cs.drop 2) with
    | some (s, n) => .ok (ofMarked .raw [quote, quote, quote] s, n + 3)
    | none => .error (.unterminatedString, 4)

-- A literal with a delimiter of its own inside of its quotes; `cs` starts behind the opening quote and `front` stands
-- before that.
def delimitedString (mark : StringMark) (front : List Char) (cs : List Char) : Step :=
  match cs with
  | [] => .error (.blankDelimiter (.ofList front), front.length + 1)
  | c :: cs =>
    if c = ' ' || c = '\t' || c = '\r' || c = '\n' then .error (.blankDelimiter (.ofList front), front.length + 1)
    else match delimitedBody (closingDelimiter c) cs with
      | some (s, n) =>
        .ok (.marked ⟨mark, .ofList s, .ofList ['\'', c], .ofList [closingDelimiter c, '\'']⟩, front.length + 1 + n)
      | none => .error (.unterminatedString, front.length)

def dollar (cs : List Char) : Step :=
  match cs with
  | '$' :: body =>
    match dollarBody ['$', '$'] body with
    | some s => .ok (.dollarString none (.ofList s), s.length + 3)
    | none => .error (.unterminatedDollar, cs.length + 1)
  | _ =>
    let tag := cs.takeWhile fun c => Text.isAlphanumeric c || c = '_'
    match cs.drop tag.length with
    | '$' :: body =>
      match dollarBody ('$' :: tag ++ ['$']) body with
      | some s => .ok (.dollarString (some (.ofList tag)) (.ofList s), s.length + 2 * tag.length + 3)
      | none => .error (.unterminatedTag, cs.length + 1)
    | _ => .ok (.placeholder (.ofList ('$' :: tag)), tag.length)

-- The longest operator that the text starts with.
def operator? (d : Dialect) : List Char → Option (Symbol × Nat)
  | '-' :: '>' :: '>' :: _ => some (.longArrow, 2)
  | '-' :: '>' :: _ => some (.arrow, 1)
  | '-' :: _ => some (.minus, 0)
  | '/' :: '/' :: _ => some (if d.isGeneric then (.intDiv, 1) else (.div, 0))
  | '/' :: _ => some (.div, 0)
  | '|' :: '|' :: '/' :: _ => some (.cubeRoot, 2)
  | '|' :: '|' :: _ => some (.concat, 1)
  | '|' :: '/' :: _ => some (.squareRoot, 1)
  | '|' :: '>' :: _ => some (if d.isGeneric then (.pipeGt, 1) else (.pipe, 0))
  | '|' :: _ => some (.pipe, 0)
  | '=' :: '>' :: _ => some (.fatArrow, 1)
  | '=' :: '=' :: _ => some (.doubleEq, 1)
  | '=' :: _ => some (.eq, 0)
  | '!' :: '=' :: _ => some (.neq, 1)
  | '!' :: '!' :: _ => some (.doubleBang, 1)
  | '!' :: '~' :: '*' :: _ => some (.bangTildeStar, 2)
  | '!' :: '~' :: '~' :: '*' :: _ => some (.bangDoubleTildeStar, 3)
  | '!' :: '~' :: '~' :: _ => some (.bangDoubleTilde, 2)
  | '!' :: '~' :: _ => some (.bangTilde, 1)
  | '!' :: _ => some (.bang, 0)
  | '<' :: '=' :: '>' :: _ => some (.spaceship, 2)
  | '<' :: '=' :: _ => some (.ltEq, 1)
  | '<' :: '>' :: _ => some (.neq, 1)
  | '<' :: '<' :: _ => some (.shiftLeft, 1)
  | '<' :: '@' :: _ => some (.arrowAt, 1)
  | '<' :: _ => some (.lt, 0)
  | '>' :: '=' :: _ => some (.gtEq, 1)
  | '>' :: '>' :: _ => some (.shiftRight, 1)
  | '>' :: _ => some (.gt, 0)
  | ':' :: ':' :: _ => some (.doubleColon, 1)
  | ':' :: '=' :: _ => some (.assignment, 1)
  | ':' :: _ => some (.colon, 0)
  | '&' :: '&' :: _ => some (.overlap, 1)
  | '&' :: _ => some (.ampersand, 0)
  | '^' :: '@' :: _ => some (.caretAt, 1)
  | '^' :: _ => some (.caret, 0)
  | '~' :: '~' :: '*' :: _ => some (.doubleTildeStar, 2)
  | '~' :: '~' :: _ => some (.doubleTilde, 1)
  | '~' :: '*' :: _ => some (.tildeStar, 1)
  | '~' :: _ => some (.tilde, 0)
  | '#' :: '-' :: _ => some (.hashMinus, 1)
  | '#' :: '>' :: '>' :: _ => some (.hashLongArrow, 2)
  | '#' :: '>' :: _ => some (.hashArrow, 1)
  | '#' :: ' ' :: _ => some (.sharp, 0)
  | '@' :: '>' :: _ => some (.atArrow, 1)
  | '@' :: '?' :: _ => some (.atQuestion, 1)
  | '@' :: '@' :: ' ' :: _ => some (.atAt, 1)
  | '@' :: c :: _ => if c = ' ' || c = '\'' || c = '"' || c = '\x60' then some (.atSign, 0) else none
  | '(' :: _ => some (.lparen, 0) | ')' :: _ => some (.rparen, 0) | ',' :: _ => some (.comma, 0)
  | '+' :: _ => some (.plus, 0) | '*' :: _ => some (.mul, 0) | '%' :: _ => some (.mod, 0)
  | ';' :: _ => some (.semicolon, 0) | '\\' :: _ => some (.backslash, 0)
  | '[' :: _ => some (.lbracket, 0) | ']' :: _ => some (.rbracket, 0)
  | '\x7b' :: _ => some (.lbrace, 0) | '\x7d' :: _ => some (.rbrace, 0)
  | _ => none

-- `#` and `@` open a name where the dialect lets them; the character behind them is taken as it is.
def sigil (d : Dialect) (c : Char) (cs : List Char) : Step :=
  let alone : Step := .ok (.symbol (if c = '#' then .sharp else .atSign), 0)
  match cs with
  | [] => alone
  | c' :: cs' =>
    if c = '@' && c' = '@' then
      match cs' with
      | c'' :: cs'' => if d.startsName '@' then bareWord d [c, c', c''] cs'' else .ok (.symbol .atAt, 1)
      | [] => .ok (.symbol .atAt, 1)
    else if d.startsName c then bareWord d [c, c'] cs' else alone

-- Letters that may open a literal instead of a name.
def lettered (d : Dialect) (c : Char) (cs : List Char) : Step :=
  let word := bareWord d [c] cs
  match c.toLower, cs with
  | 'b', q :: cs => if d.isGeneric && (q = '\'' || q = '"') then markedString .bytes 1 q false cs else word
  | 'r', q :: cs => if d.isGeneric && (q = '\'' || q = '"') then rawString q cs else word
  | 'q', '\'' :: cs => if d.isGeneric then delimitedString .delimited [c] cs else word
  | 'n', '\'' :: cs => markedString .national 1 '\'' d.hasBackslashEscapes cs
  | 'n', q :: '\'' :: cs =>
    if d.isGeneric && q.toLower = 'q' then delimitedString .nationalDelimited [c, q] cs else word
  | 'x', '\'' :: cs => markedString .hex 1 '\'' true cs
  | 'e', '\'' :: cs =>
    if d.isGeneric then
      match escapedBody 0 cs with
      | some (s, n) => .ok (ofMarked .escaped ['\''] s, n + 1)
      | none => .error (.unterminatedEscapes, 0)
    else word
  | 'u', '&' :: '\'' :: cs =>
    if d.isGeneric then do let (s, n) ← unicodeBody 3 0 cs; .ok (ofMarked .unicode ['\''] s, n + 2)
    else word
  | _, _ => word

-- The token that the text `c :: cs` starts with, `prev` being the token right before it.
def first (d : Dialect) (prev : Option Token) (c : Char) (cs : List Char) : Step :=
  if c = ' ' then .ok (.blank .space, 0)
  else if c = '\t' then .ok (.blank .tab, 0)
  else if c = '\n' then .ok (.blank .newline, 0)
  else if c = '\r' then .ok (.blank .newline, if cs.head? = some '\n' then 1 else 0)
  else if c.isAlpha then lettered d c cs
  else if c = '\'' then
    match quotedBody '\'' d.hasBackslashEscapes cs with
    | some (s, n) => .ok (.string (.ofList s), n)
    | none => .error (.unterminatedString, 0)
  else if c = '"' || c = '\x60' then
    match quotedBody c false cs with
    | some (s, n) => .ok (.quotedWord (.ofList s) c, n)
    | none => .error (.unterminatedName c, 0)
  else if c.isDigit || c = '.' then numeral d prev (c :: cs)
  else if c = '-' && cs.head? = some '-' then lineComment "--" cs.tail
  else if c = '/' && cs.head? = some '*' then
    match commentBody d.nestsComments 0 cs.tail with
    | some (s, n) => .ok (.blank (.blockComment (.ofList s)), n + 1)
    | none => .error (.unterminatedComment, cs.length + 1)
  else if c = '/' && cs.head? = some '/' && d.isSnowflake then lineComment "//" cs.tail
  else if c = '#' && d.isSnowflake then lineComment "#" cs
  else match operator? d (c :: cs) with
    | some (s, n) => .ok (.symbol s, n)
    | none =>
      if c = '#' || c = '@' then sigil d c cs
      else if c = '?' then
        let digits := cs.takeWhile Text.isNumeric
        .ok (.placeholder (.ofList (c :: digits)), digits.length)
      else if d.startsName c then bareWord d [c] cs
      else if c = '$' then dollar cs
      else if Text.isBlank c then .ok (.blank .space, 0)
      else .ok (.char c, 0)

-- What takes the place of a token, given the token before it.
abbrev Spread := Option Token → Lexeme → Except (LexicalFault × Location) (List Lexeme)

-- `skip` counts the characters of the last token that are still to come.
def scanFrom (d : Dialect) (spread : Spread) :
    (prev : Option Token) → (loc : Location) → (skip : Nat) → List Char →
    Except (LexicalFault × Location) (List Lexeme)
  | _, _, _, [] => .ok []
  | prev, loc, skip + 1, c :: cs => scanFrom d spread prev (loc.past c) skip cs
  | prev, loc, 0, c :: cs =>
    match first d prev c cs with
    | .error (fault, n) => .error (fault, loc.pastAll ((c :: cs).take n))
    | .ok (tok, n) => do
      let own ← spread prev { token := tok, start := loc, stop := loc.pastAll ((c :: cs).take (n + 1)) }
      let last := (own.getLast?.map (·.token)).or prev
      return own ++ (← scanFrom d spread last (loc.past c) n cs)

-- A block comment with an exclamation mark in front is read as text, behind digits that may give a version. Its places
-- are counted as if the text began where the comment does.
def openComment (d : Dialect) : Spread := fun prev l =>
  match l.token with
  | .blank (.blockComment body) =>
    match body.toList with
    | '!' :: cs =>
      if d.opensComments then scanFrom d (fun _ l => .ok [l]) prev l.start 0 (cs.dropWhile Char.isDigit) else .ok [l]
    | _ => .ok [l]
  | _ => .ok [l]

-- The blanks in front, and the other lexemes with the blanks behind each.
def gathered : List Lexeme → List (Blank × Location) × List Lexeme
  | [] => ([], [])
  | l :: ls =>
    let (gap, rest) := gathered ls
    match l.token with
    | .blank b => ((b, l.start) :: gap, rest)
    | _ => ([], { l with gap } :: rest)

-- All tokens of a text that mean something.
def scan (d : Dialect) (sql : List Char) : Except (LexicalFault × Location) (List Lexeme) :=
  return (gathered (← scanFrom d (openComment d) none .start 0 sql)).2

end JoinTree.Sql.Token
