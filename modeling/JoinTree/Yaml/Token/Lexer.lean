import JoinTree.Yaml.Token.Scalar
import JoinTree.Yaml.Token.Tag

/-!
The tokens of a text. Whether something is the key of a mapping shows only at the colon behind it, so the tokens that
may yet become a key wait; a key then gets its own token in front, and its mapping one in front of that.
-/

namespace JoinTree.Yaml

-- A place where a key may have begun. `required` holds in a mapping whose next entry must begin there.
structure PossibleKey where
  number : Nat
  required : Bool
  mark : Mark
  deriving Repr

structure Lexer where
  cursor : Cursor
  tokens : List Lexeme := []
  -- The column of the innermost block collection, -1 outside of all, and those of the collections around it.
  indent : Int := -1
  indents : List Int := []
  -- One for each open flow collection, and one for what is around them.
  keys : List (Option PossibleKey) := [none]
  keyAllowed : Bool := true
  finished : Bool := false

namespace Lexer

def mark (x : Lexer) : Mark := x.cursor.mark
def inFlow (x : Lexer) : Bool := x.keys.length > 1

def push (x : Lexer) (t : Token) (start stop : Mark) : Lexer := { x with tokens := x.tokens ++ [⟨t,start,stop⟩] }
def insert (x : Lexer) (number : Nat) (t : Token) (m : Mark) : Lexer :=
  { x with tokens := x.tokens.take number ++ ⟨t,m,m⟩ :: x.tokens.drop number }

-- The token of an indicator of `n` characters.
def pushIndicator (x : Lexer) (t : Token) (n : Nat) : Lexer :=
  let c := Nat.repeat Cursor.skip n x.cursor
  { x.push t x.mark c.mark with cursor := c }

private def missingColon (m : Mark) (k : PossibleKey) : Fault :=
  { problem := .missingColon, place := m, during := some (.simpleKey,k.mark) }

-- A key stands on one line, within 1024 characters.
def isStale (x : Lexer) (k : PossibleKey) : Bool := k.mark.line < x.mark.line || k.mark.index + 1024 < x.mark.index

private def refreshed (x : Lexer) : List (Option PossibleKey) → Except Fault (List (Option PossibleKey))
  | [] => .ok []
  | k :: ks => do
    -- The outermost key is looked at first.
    let ks ← refreshed x ks
    match k with
    | some p =>
      if !x.isStale p then return some p :: ks
      else if p.required then .error (missingColon x.mark p)
      else return none :: ks
    | none => return none :: ks

def dropStaleKeys (x : Lexer) : Except Fault Lexer := do return { x with keys := ← refreshed x x.keys }

-- No key has begun here.
def removeKey (x : Lexer) : Except Fault Lexer :=
  match x.keys with
  | some k :: ks => if k.required then .error (missingColon x.mark k) else .ok { x with keys := none :: ks }
  | _ => .ok x

-- A key may begin here.
def saveKey (x : Lexer) : Except Fault Lexer :=
  if !x.keyAllowed then .ok x
  else do
    let required := !x.inFlow && x.indent = x.mark.column
    let y ← x.removeKey
    return { y with keys := some ⟨x.tokens.length,required,x.mark⟩ :: y.keys.drop 1 }

-- Opens a block collection at a column, unless one is open there.
def openBlock (x : Lexer) (t : Token) (number : Nat) (m : Mark) : Lexer :=
  if x.inFlow || x.indent ≥ m.column then x
  else { x.insert number t m with indent := m.column, indents := x.indent :: x.indents }

def openBlockHere (x : Lexer) (t : Token) : Lexer := x.openBlock t x.tokens.length x.mark

private def closed (column : Int) (m : Mark) : Int → List Int → Nat × Int × List Int
  | indent, [] => (0,indent,[])
  | indent, i :: is =>
    if indent > column then let (n,indent,is) := closed column m i is; (n + 1,indent,is) else (0,indent,i :: is)

-- Closes the block collections that begin right of a column.
def closeBlocks (x : Lexer) (column : Int) : Lexer :=
  if x.inFlow then x
  else
    let (n,indent,indents) := closed column x.mark x.indent x.indents
    { x with
      tokens := x.tokens ++ List.replicate n ⟨.blockEnd,x.mark,x.mark⟩
      indent := indent
      indents := indents }

-- Blanks, comments and line breaks. Tabs count as blanks only where no key may begin.
def skipGap (x : Lexer) : (bound : Nat) → Lexer
  | 0 => x
  | n + 1 =>
    let c := if x.mark.index = 0 && x.cursor.isAt '\ufeff' then x.cursor.skip else x.cursor
    let c := c.skipWhile fun ch => ch = ' ' || ((x.inFlow || !x.keyAllowed) && ch = '\t')
    let c := if c.isAt '#' then c.skipWhile fun _ => true else c
    if c.isAtBreak then skipGap { x with cursor := c.skip, keyAllowed := x.keyAllowed || !x.inFlow } n
    else { x with cursor := c }

-- One token each, or a few.

def atEnd (x : Lexer) : Except Fault Lexer := do
  let m := x.mark
  let m := if m.column = 0 then m else { m with line := m.line + 1, column := 0 }
  let x ← ({ x with cursor := ⟨[],m⟩ }.closeBlocks (-1)).removeKey
  return { x.push .streamEnd m m with keyAllowed := false, finished := true }

def directive (x : Lexer) : Except Fault Lexer := do
  let x ← (x.closeBlocks (-1)).removeKey
  let (t,stop,c) ← Token.readDirective x.cursor
  return { x.push t x.mark stop with cursor := c, keyAllowed := false }

def documentIndicator (x : Lexer) (t : Token) : Except Fault Lexer := do
  let x ← (x.closeBlocks (-1)).removeKey
  return { x.pushIndicator t 3 with keyAllowed := false }

def flowStart (x : Lexer) (t : Token) : Except Fault Lexer := do
  let x ← x.saveKey
  return { x.pushIndicator t 1 with keys := none :: x.keys, keyAllowed := true }

def flowEnd (x : Lexer) (t : Token) : Except Fault Lexer := do
  let x ← x.removeKey
  return { x.pushIndicator t 1 with keys := if x.inFlow then x.keys.drop 1 else x.keys, keyAllowed := false }

def flowEntry (x : Lexer) : Except Fault Lexer := do
  let x ← x.removeKey
  return { x.pushIndicator .flowEntry 1 with keyAllowed := true }

def blockEntry (x : Lexer) : Except Fault Lexer :=
  if !x.inFlow && !x.keyAllowed then .error { problem := .blockEntry, place := x.mark }
  else do
    let x ← (x.openBlockHere .blockSequenceStart).removeKey
    return { x.pushIndicator .blockEntry 1 with keyAllowed := true }

def complexKey (x : Lexer) : Except Fault Lexer :=
  if !x.inFlow && !x.keyAllowed then .error { problem := .blockKey, place := x.mark }
  else do
    let x ← (x.openBlockHere .blockMappingStart).removeKey
    return { x.pushIndicator .key 1 with keyAllowed := !x.inFlow }

def value (x : Lexer) : Except Fault Lexer :=
  match x.keys with
  | some k :: ks =>
    let x := (x.insert k.number .key k.mark).openBlock .blockMappingStart k.number k.mark
    .ok ({ x with keys := none :: ks, keyAllowed := false }.pushIndicator .value 1)
  | _ =>
    if !x.inFlow && !x.keyAllowed then .error { problem := .blockValue, place := x.mark }
    else
      let x := x.openBlockHere .blockMappingStart
      .ok ({ x with keyAllowed := !x.inFlow }.pushIndicator .value 1)

def named (x : Lexer) (activity : Activity) (token : String → Token) : Except Fault Lexer := do
  let x ← x.saveKey
  let (name,c) ← Token.readName activity x.cursor
  return { x.push (token name) x.mark c.mark with cursor := c, keyAllowed := false }

def tag (x : Lexer) : Except Fault Lexer := do
  let x ← x.saveKey
  let (t,c) ← Token.readTag x.inFlow x.cursor
  return { x.push t x.mark c.mark with cursor := c, keyAllowed := false }

private def pushScalar (x : Lexer) (s : ReadScalar) (style : Style) (keyAllowed : Bool) : Lexer :=
  { x.push (.scalar (.ofList s.text) style) x.mark s.stop with cursor := s.cursor, keyAllowed := keyAllowed }

def blockScalar (x : Lexer) (style : Style) : Except Fault Lexer := do
  let x ← x.removeKey
  return x.pushScalar (← Block.read (style = .folded) x.indent x.cursor) style true

def quotedScalar (x : Lexer) (quote : Char) : Except Fault Lexer := do
  let x ← x.saveKey
  return x.pushScalar (← Quoted.read quote x.cursor) .quoted false

def plainScalar (x : Lexer) : Except Fault Lexer := do
  let x ← x.saveKey
  let s ← Plain.read x.inFlow (x.indent + 1) x.cursor
  return x.pushScalar s .plain s.broken

private def indicators : List Char :=
  ['-','?',':',',','[',']','\x7b','\x7d','#','&','*','!','|','>','\'','"','%','@','\x60']

-- Whether a plain scalar begins here.
def isPlainStart (x : Lexer) (c : Char) : Bool :=
  !(isBlank c || indicators.contains c) ||
    (c = '-' && !(x.cursor.at? 1).any isBlank) ||
    (!x.inFlow && (c = '?' || c = ':') && !x.cursor.isGapAt 1)

-- The token that the text goes on with.
def token (x : Lexer) : Except Fault Lexer :=
  let separate := x.cursor.isGapAt 1
  match x.cursor.rest with
  | [] => x.atEnd
  | c :: _ =>
    if x.mark.column = 0 && c = '%' then x.directive
    else if x.cursor.isAtIndicator '-' then x.documentIndicator .documentStart
    else if x.cursor.isAtIndicator '.' then x.documentIndicator .documentEnd
    else if c = '[' then x.flowStart .flowSequenceStart
    else if c = '\x7b' then x.flowStart .flowMappingStart
    else if c = ']' then x.flowEnd .flowSequenceEnd
    else if c = '\x7d' then x.flowEnd .flowMappingEnd
    else if c = ',' then x.flowEntry
    else if c = '-' && separate then x.blockEntry
    else if c = '?' && (x.inFlow || separate) then x.complexKey
    else if c = ':' && (x.inFlow || separate) then x.value
    else if c = '*' then x.named .aliasName .reference
    else if c = '&' then x.named .anchor .anchor
    else if c = '!' then x.tag
    else if c = '|' && !x.inFlow then x.blockScalar .literal
    else if c = '>' && !x.inFlow then x.blockScalar .folded
    else if c = '\'' || c = '"' then x.quotedScalar c
    else if x.isPlainStart c then x.plainScalar
    else .error (x.cursor.fault .tokenStart .nextToken x.mark)

def step (x : Lexer) : Except Fault Lexer := do
  let x ← (x.skipGap (x.cursor.rest.length + 1)).dropStaleKeys
  (x.closeBlocks x.mark.column).token

-- The tokens in front of the first that may yet turn out to belong to a key.
def settled (x : Lexer) : List Lexeme :=
  let waiting := x.keys.filterMap fun k => k.bind fun p => if x.isStale p then none else some p.number
  x.tokens.take (waiting.foldl min x.tokens.length)

-- The tokens that can be read, and the fault that ends them early.
def run : (bound : Nat) → Lexer → List Lexeme × Option Fault
  | 0, x => (x.settled,none)
  | n + 1, x =>
    if x.finished then (x.tokens,none)
    else match x.step with
      | .ok x => run n x
      | .error fault => (x.settled,some fault)

end Lexer

def isAllowed (c : Char) : Bool :=
  let n := c.toNat
  n = 9 || n = 10 || n = 13 || (32 ≤ n && n ≤ 126) || n = 133 || (160 ≤ n && n ≤ 0xd7ff) ||
    (0xe000 ≤ n && n ≤ 0xfffd) || 0x10000 ≤ n

-- The place in bytes of the first character that may not stand in a text.
def controlOffset? : (offset : Nat) → List Char → Option Nat
  | _, [] => none
  | offset, c :: cs => if isAllowed c then controlOffset? (offset + c.utf8Size) cs else some offset

-- A byte order mark in front is no part of the text.
def Lexeme.ofText (text : List Char) : List Lexeme × Option Fault :=
  match controlOffset? 0 text with
  | some offset => ([],some { problem := .control, offset := offset })
  | none =>
    let body := if text.head? = some '\ufeff' then text.drop 1 else text
    Lexer.run (2 * body.length + 2) { cursor := ⟨body,{}⟩ }

end JoinTree.Yaml
