import JoinTree.Sql.Keyword
import JoinTree.Sql.Keyword.Idle

namespace JoinTree.Sql

-- Line and column, both counted from 1 in characters.
structure Location where
  line : Nat
  column : Nat
  deriving DecidableEq, Repr, Inhabited

namespace Location

def start : Location := ⟨1, 1⟩

def past (l : Location) (c : Char) : Location :=
  if c = '\n' then ⟨l.line + 1, 1⟩ else ⟨l.line, l.column + 1⟩

def pastAll (l : Location) (cs : List Char) : Location := cs.foldl past l

theorem pastAll_append (l : Location) (a b : List Char) :
    l.pastAll (a ++ b) = (l.pastAll a).pastAll b := List.foldl_append

def text (l : Location) : String := s!"Line: {l.line}, Column: {l.column}"

end Location

inductive Symbol where
  | comma | doubleEq | eq | neq | lt | gt | ltEq | gtEq | spaceship | plus | minus | mul | div | intDiv | mod
  | concat | lparen | rparen | period | colon | doubleColon | assignment | semicolon | backslash | lbracket
  | rbracket | ampersand | pipe | pipeGt | caret | lbrace | rbrace | fatArrow | sharp | tilde | tildeStar | bangTilde
  | bangTildeStar | doubleTilde | doubleTildeStar | bangDoubleTilde | bangDoubleTildeStar | shiftLeft | shiftRight
  | overlap | bang | doubleBang | atSign | caretAt | squareRoot | cubeRoot | arrow | longArrow | hashArrow
  | hashLongArrow | atArrow | arrowAt | hashMinus | atQuestion | atAt
  deriving DecidableEq, Repr

namespace Symbol

def text : Symbol → String
  | comma => "," | doubleEq => "==" | eq => "=" | neq => "<>" | lt => "<" | gt => ">" | ltEq => "<=" | gtEq => ">="
  | spaceship => "<=>" | plus => "+" | minus => "-" | mul => "*" | div => "/" | intDiv => "//" | mod => "%"
  | concat => "||" | lparen => "(" | rparen => ")" | period => "." | colon => ":" | doubleColon => "::"
  | assignment => ":=" | semicolon => ";" | backslash => "\\" | lbracket => "[" | rbracket => "]" | ampersand => "&"
  | pipe => "|" | pipeGt => "|>" | caret => "^" | lbrace => "\x7b" | rbrace => "\x7d" | fatArrow => "=>" | sharp => "#"
  | tilde => "~" | tildeStar => "~*" | bangTilde => "!~" | bangTildeStar => "!~*" | doubleTilde => "~~"
  | doubleTildeStar => "~~*" | bangDoubleTilde => "!~~" | bangDoubleTildeStar => "!~~*" | shiftLeft => "<<"
  | shiftRight => ">>" | overlap => "&&" | bang => "!" | doubleBang => "!!" | atSign => "@" | caretAt => "^@"
  | squareRoot => "|/" | cubeRoot => "||/" | arrow => "->" | longArrow => "->>" | hashArrow => "#>"
  | hashLongArrow => "#>>" | atArrow => "@>" | arrowAt => "<@" | hashMinus => "#-" | atQuestion => "@?" | atAt => "@@"

-- The name under which an operator without a meaning in the dialect is reported.
def label : Symbol → String
  | intDiv => "DuckIntDiv" | lbracket => "LBracket" | pipeGt => "VerticalBarRightAngleBracket" | sharp => "Sharp"
  | shiftLeft => "ShiftLeft" | shiftRight => "ShiftRight" | overlap => "Overlap" | bang => "ExclamationMark"
  | caretAt => "CaretAt" | atSign => "AtSign" | s => s.text

end Symbol

-- What a literal with a mark in front of its opening quote stands for.
inductive StringMark where
  | national | hex | bytes | raw | escaped | unicode | delimited | nationalDelimited
  deriving DecidableEq, Repr

def StringMark.text : StringMark → String
  | national => "N" | hex => "X" | bytes => "B" | raw => "R" | escaped => "E" | unicode => "U&"
  | delimited => "Q" | nationalDelimited => "NQ"

-- A literal that is written between marks. Some are closed by other characters than those that open them.
structure MarkedString where
  mark : StringMark
  value : String
  opening : String := "'"
  closing : String := opening
  deriving DecidableEq, Repr

-- What stands between words and has no meaning of its own. A line comment ends with its line, a block comment has its
-- opening and closing mark around it.
inductive Blank where
  | space | tab | newline
  | lineComment (mark body : String)
  | blockComment (body : String)
  deriving DecidableEq, Repr

def Blank.text : Blank → String
  | space => " " | tab => "\t" | newline => "\n"
  | lineComment mark body => mark ++ body
  | blockComment body => s!"/*{body}*/"

inductive Token where
  | word (value : String) (quote : Option Char) (keyword : Option Keyword)
  | number (digits : String) (long : Bool)
  | string (value : String)
  | marked (s : MarkedString)
  | dollarString (tag : Option String) (value : String)
  | placeholder (name : String)
  | symbol (s : Symbol)
  | char (c : Char)
  | blank (b : Blank)
  deriving DecidableEq, Repr

namespace Token

-- A quoted word is never a keyword.
def ofWord (value : String) : Token := .word value none (Keyword.ofText? value)
def quotedWord (value : String) (quote : Char) : Token := .word value (some quote) none

def keyword? : Token → Option Keyword
  | word _ _ k => k
  | _ => none

-- Whether the token is a word without a meaning in any grammar.
def isFreeWord : Token → Bool
  | word _ (some _) _ => true
  | word v none k => k.isNone && !Keyword.isIdle v
  | _ => false

def text : Token → String
  | word v none _ => v
  | word v (some q) _ => s!"{q}{v}{q}"
  | number n long => if long then n ++ "L" else n
  | string s => s!"'{s}'"
  | marked s => s.mark.text ++ s.opening ++ s.value ++ s.closing
  | dollarString tag s => let t := tag.getD ""; s!"${t}${s}${t}$"
  | placeholder s => s
  | symbol s => s.text
  | char c => c.toString
  | blank b => b.text

end Token

-- A token with the half-open stretch of text it was read from, and the blanks between it and the next one.
structure Lexeme where
  token : Token
  start : Location
  stop : Location
  gap : List (Blank × Location) := []
  deriving DecidableEq, Repr

end JoinTree.Sql
