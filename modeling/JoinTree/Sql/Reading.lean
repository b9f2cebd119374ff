import JoinTree.Sql.Token.Lexer
import JoinTree.Text.Quoted

/-!
Reading a list of lexemes from the left. A reading that fails names the cause; `attempt` takes a failure back unless
the text nests too deeply, which no other reading of the same text can mend.
-/

namespace JoinTree.Sql

-- Why a text is not read. `found` is absent at the end of the text.
inductive SyntaxError where
  | lexical (fault : LexicalFault) (place : Location)
  | expected (what : String) (found : Option Lexeme)
  | notInfix (found : Lexeme)
  | emptyProjection (word : String) (next : Option Location)
  | unfinishedJoin (side : Keyword)
  | unmatchedBracket (type next : String)
  | refused (message : String) (place : Option Location)
  | tooDeep
  deriving DecidableEq, Repr

namespace SyntaxError

private def placeText : Option Location → String
  | none => ""
  | some l => " at " ++ l.text

private def operatorText : Token → String
  | .word v _ k =>
    let keyword := (k.map Keyword.text).getD "NoKeyword"
    s!"Word(Word \x7b value: {Text.quoted v}, quote_style: None, keyword: {keyword} \x7d)"
  | .symbol s => s.label
  | t => t.text

def message (e : SyntaxError) : String :=
  "sql parser error: " ++
  match e with
  | lexical fault place => fault.message ++ placeText (some place)
  | expected what found =>
    s!"Expected: {what}, found: " ++ (found.map (·.token.text)).getD "EOF" ++ placeText (found.map (·.start))
  | notInfix found => s!"No infix parser for token {operatorText found.token}" ++ placeText (some found.start)
  | emptyProjection word next => s!"Expected an expression, found: {word}" ++ placeText next
  | unfinishedJoin side => s!"expected OUTER, SEMI, ANTI or JOIN after {side.text}"
  | unmatchedBracket type next => s!"unmatched > after parsing data type {type}{next}"
  | refused text place => text ++ placeText place
  | tooDeep => "recursion limit exceeded"

end SyntaxError

abbrev Reading := StateT (List Lexeme) (Except SyntaxError)

namespace Reading

def next? : Reading (Option Lexeme) := fun ls => .ok (ls.head?, ls)
def place? : Reading (Option Location) := fun ls => .ok (ls.head?.map (·.start), ls)
def token? : Reading (Option Token) := fun ls => .ok (ls.head?.map (·.token), ls)
-- The token `n` places after the next one.
def tokenAt? (n : Nat) : Reading (Option Token) := fun ls => .ok (ls[n]?.map (·.token), ls)
def ahead? : Reading (Option Keyword) := fun ls => .ok (ls.head?.bind (·.token.keyword?), ls)
def skip : Reading Unit := fun ls => .ok ((), ls.tail)
def take? : Reading (Option Lexeme) := fun ls => .ok (ls.head?, ls.tail)

def isAhead (k : Keyword) : Reading Bool := return (← ahead?) = some k
def anyAhead (ks : List Keyword) : Reading Bool := return (← ahead?).any (ks.contains ·)
def symbolAhead (s : Symbol) : Reading Bool := return (← token?) = some (.symbol s)

def keyword? (k : Keyword) : Reading Bool := fun ls =>
  match ls with
  | [] => .ok (false, [])
  | l :: rest => if l.token.keyword? = some k then .ok (true, rest) else .ok (false, l :: rest)

-- All of the words in a row, or none.
def keywords? (ks : List Keyword) : Reading Bool := fun ls =>
  if (ls.take ks.length).map (·.token.keyword?) = ks.map some then .ok (true, ls.drop ks.length) else .ok (false, ls)

def oneOf? (ks : List Keyword) : Reading (Option Keyword) := fun ls =>
  match ls with
  | [] => .ok (none, [])
  | l :: rest =>
    match l.token.keyword? with
    | some k => if ks.contains k then .ok (some k, rest) else .ok (none, l :: rest)
    | none => .ok (none, l :: rest)

def symbol? (s : Symbol) : Reading Bool := fun ls =>
  match ls with
  | [] => .ok (false, [])
  | l :: rest => if l.token = .symbol s then .ok (true, rest) else .ok (false, l :: rest)

def expected (what : String) : Reading α := fun ls => .error (.expected what ls.head?)
def refuse (message : String) : Reading α := fun ls => .error (.refused message (ls.head?.map (·.start)))

def oneOf (ks : List Keyword) : Reading Keyword := do
  match ← oneOf? ks with
  | some k => pure k
  | none => expected ("one of " ++ " or ".intercalate (ks.map Keyword.text))

-- All of the symbols in a row, or none.
def symbols? (ss : List Symbol) : Reading Bool := fun ls =>
  if (ls.take ss.length).map (·.token) = ss.map Token.symbol then .ok (true, ls.drop ss.length) else .ok (false, ls)

def keyword (k : Keyword) : Reading Unit := do unless ← keyword? k do expected k.text
def keywords (ks : List Keyword) : Reading Unit := ks.forM keyword
def symbol (s : Symbol) : Reading Unit := do unless ← symbol? s do expected s.text

-- The next token has to be one that `read` accepts.
def tokenOf (what : String) (read : Token → Option α) : Reading α := fun ls =>
  match ls with
  | [] => .error (.expected what none)
  | l :: rest =>
    match read l.token with
    | some a => .ok (a, rest)
    | none => .error (.expected what (some l))

def attempt (p : Reading α) : Reading (Option α) := fun ls =>
  match p ls with
  | .ok (a, rest) => .ok (some a, rest)
  | .error .tooDeep => .error .tooDeep
  | .error _ => .ok (none, ls)

def when? (b : Bool) (p : Reading α) : Reading (Option α) := if b then some <$> p else pure none

-- A test that only some dialects make.
def provided (b : Bool) (test : Reading Bool) : Reading Bool := if b then test else pure false

-- What follows a word, if the word is there.
def after? (k : Keyword) (p : Reading α) : Reading (Option α) := do when? (← keyword? k) p

def parenthesised (p : Reading α) : Reading α := do
  symbol .lparen
  let a ← p
  symbol .rparen
  pure a

-- The first reading that answers something.
def firstOf : List (Reading (Option α)) → Reading (Option α)
  | [] => pure none
  | p :: ps => do
    match ← p with
    | some a => return some a
    | none => firstOf ps

-- Words in a row with a text behind them, if the words are there.
def worded? (ks : List Keyword) (p : Reading String) : Reading (Option String) := do
  when? (← keywords? ks) do return " ".intercalate (ks.map Keyword.text) ++ (← p)

-- A blank and what was found, or nothing.
def spaced (found : Option String) : String := (found.map (" " ++ ·)).getD ""

-- Applies `step` until it answers nothing. A step that answers something has taken a lexeme.
def iterate (step : α → Reading (Option α)) (a : α) : Reading α := fun ls => go ls.length a ls
where
  go : Nat → α → Reading α
    | 0, a => pure a
    | n + 1, a => do
      match ← step a with
      | none => pure a
      | some b => go n b

-- One or more items with commas between them; `closes` tells from what follows a comma that the comma was the last.
def separated (closes : List Lexeme → Bool) (item : Reading α) : Reading (List α) := fun ls => go ls.length ls
where
  go : Nat → Reading (List α)
    | 0 => List.singleton <$> item
    | n + 1 => do
      let a ← item
      if !(← symbol? .comma) || closes (← get) then return [a]
      return a :: (← go n)

def list (item : Reading α) : Reading (List α) := separated (fun _ => false) item

-- A list that may be empty, up to `closing`.
def listBefore (closing : Symbol) (item : Reading α) : Reading (List α) := do
  if ← symbolAhead closing then return [] else list item

-- The texts of a list, one behind another.
def texts (item : Reading String) : Reading String := return ", ".intercalate (← list item)

-- The text behind some words with the words in front, or nothing if the words are not there.
def clause (ks : List Keyword) (p : Reading String) : Reading String := do
  let words := " ".intercalate (ks.map Keyword.text)
  if ← keywords? ks then return s!" {words} {← p}" else return ""

def textAfter (k : Keyword) (p : Reading String) : Reading String := clause [k] p

-- The next lexeme, or the blank in front of it that the last one of `front` has behind it.
def nextOrBlank? (front : Lexeme) : Reading (Option Lexeme) := do
  match front.gap with
  | (b, start) :: _ => return some { token := .blank b, start, stop := start }
  | [] => next?

-- A comment behind a word that starts with a plus sign, if no other comment stands in front of it.
def hintBehind (word : Lexeme) : String :=
  match word.gap.find? fun (b, _) => b ≠ .space && b ≠ .tab && b ≠ .newline with
  | some (.lineComment mark body, _) => if body.startsWith "+" then s!" {mark}{body}" else ""
  | some (.blockComment body, _) => if body.startsWith "+" then s!" /*{body}*/" else ""
  | _ => ""

end Reading

end JoinTree.Sql
