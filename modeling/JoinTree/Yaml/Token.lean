import JoinTree.Yaml.Fault

namespace JoinTree.Yaml

inductive Style where
  | plain | quoted | literal | folded
  deriving DecidableEq, Repr

-- The bytes of a tag. Nothing makes sure that they are a text.
abbrev Octets := List UInt8

namespace Octets

def ofText (s : String) : Octets := s.toUTF8.data.toList

def text? (bytes : Octets) : Option String := String.fromUTF8? ⟨bytes.toArray⟩

-- What stands in front of the first zero.
def untilZero (bytes : Octets) : Octets := bytes.takeWhile (· ≠ 0)

end Octets

inductive Token where
  | streamEnd
  | versionDirective (major minor : Nat)
  | tagDirective (handle : String) (uri : Octets)
  | documentStart | documentEnd
  | blockSequenceStart | blockMappingStart | blockEnd
  | flowSequenceStart | flowSequenceEnd | flowMappingStart | flowMappingEnd
  | blockEntry | flowEntry | key | value
  | anchor (name : String)
  | reference (name : String)
  | tag (handle : String) (suffix : Octets)
  | scalar (value : String) (style : Style)
  deriving DecidableEq, Repr

structure Lexeme where
  token : Token
  start : Mark
  stop : Mark
  deriving DecidableEq, Repr

-- What is left of a text, and where that begins.
structure Cursor where
  rest : List Char
  mark : Mark := {}

def isBreak (c : Char) : Bool := c = '\n' || c = '\r' || c = '\x85' || c = '\u2028' || c = '\u2029'
def isBlank (c : Char) : Bool := c = ' ' || c = '\t'
def isNameChar (c : Char) : Bool := c.isAlphanum || c = '_' || c = '-'

-- A line break as the text of a scalar shows it.
def breakText (c : Char) : Char := if c = '\u2028' || c = '\u2029' then c else '\n'

namespace Mark

def next (m : Mark) : Mark := { m with index := m.index + 1, column := m.column + 1 }
def nextLine (m : Mark) (width : Nat) : Mark := ⟨m.index + width,m.line + 1,0⟩

end Mark

namespace Cursor

-- Past one character or one line break.
def skip (c : Cursor) : Cursor :=
  match c.rest with
  | [] => c
  | '\r' :: '\n' :: r => ⟨r,c.mark.nextLine 2⟩
  | x :: r => ⟨r,if isBreak x then c.mark.nextLine 1 else c.mark.next⟩

def at? (c : Cursor) (i : Nat) : Option Char := c.rest[i]?
def isAt (c : Cursor) (x : Char) : Bool := c.rest.head? = some x
def isAtAny (c : Cursor) (xs : List Char) : Bool := c.rest.head?.any xs.contains
def isAtEnd (c : Cursor) : Bool := c.rest.isEmpty
def isAtBreak (c : Cursor) : Bool := c.rest.head?.any isBreak
def isAtBlank (c : Cursor) : Bool := c.rest.head?.any isBlank

-- A blank, a line break or the end of the text is `i` characters ahead.
def isGapAt (c : Cursor) (i : Nat) : Bool := (c.at? i).all fun x => isBlank x || isBreak x

def isAtBreakOrEnd (c : Cursor) : Bool := c.rest.head?.all isBreak

-- The characters in front that have a property, none of them a line break.
def takeWhile (c : Cursor) (p : Char → Bool) : List Char × Cursor :=
  let taken := c.rest.takeWhile fun x => p x && !isBreak x
  (taken,⟨c.rest.drop taken.length,taken.foldl (fun m _ => m.next) c.mark⟩)

def skipWhile (c : Cursor) (p : Char → Bool) : Cursor := (c.takeWhile p).2

-- Blanks and a comment behind them.
def skipToLineEnd (c : Cursor) : Cursor :=
  let c := c.skipWhile isBlank
  if c.isAt '#' then c.skipWhile fun _ => true else c

-- Three dashes or three points at the start of a line stand between documents.
def isAtIndicator (c : Cursor) (x : Char) : Bool :=
  c.mark.column = 0 && c.rest.take 3 = [x,x,x] && c.isGapAt 3

def isAtDocumentIndicator (c : Cursor) : Bool := c.isAtIndicator '-' || c.isAtIndicator '.'

def fault (c : Cursor) (p : Problem) (during : Activity) (start : Mark) : Fault :=
  { problem := p, place := c.mark, during := some (during,start) }

end Cursor

end JoinTree.Yaml
