import JoinTree.Text.Digits

/-!
Why a text is no YAML. A fault has the place where it was found and, as a rule, the construct that was being read and
the place where that began.
-/

namespace JoinTree.Yaml

-- Line and column are counted from 0, in characters; a line break of two characters counts once.
structure Mark where
  index : Nat := 0
  line : Nat := 0
  column : Nat := 0
  deriving DecidableEq, Repr, Inhabited

namespace Mark

def isFirst (m : Mark) : Bool := m.line = 0 && m.column = 0

def text (m : Mark) : String := s!"line {m.line + 1} column {m.column + 1}"

-- What a message ends in. The first place of a text is not named.
def suffix (m : Mark) : String := if m.isFirst then "" else s!" at {m.text}"

end Mark

inductive Activity where
  | nextToken | simpleKey | directive | versionDirective | tagDirective | tagHandleDirective | tagHandleOnly
  | tagPrefix | tag | tagSuffix | anchor | aliasName | blockScalar | quotedScalar | escape | plainScalar
  | node | blockNode | flowNode | blockMapping | flowMapping
  deriving DecidableEq, Repr

def Activity.text : Activity → String
  | nextToken => "while scanning for the next token" | simpleKey => "while scanning a simple key"
  | directive => "while scanning a directive" | versionDirective => "while scanning a %YAML directive"
  | tagDirective => "while scanning a %TAG directive" | tagHandleDirective => "while scanning a tag directive"
  | tagHandleOnly => "while parsing a tag directive" | tagPrefix => "while parsing a %TAG directive"
  | tag => "while scanning a tag" | tagSuffix => "while parsing a tag" | anchor => "while scanning an anchor"
  | aliasName => "while scanning an alias" | blockScalar => "while scanning a block scalar"
  | quotedScalar => "while scanning a quoted scalar" | escape => "while parsing a quoted scalar"
  | plainScalar => "while scanning a plain scalar" | node => "while parsing a node"
  | blockNode => "while parsing a block node" | flowNode => "while parsing a flow node"
  | blockMapping => "while parsing a block mapping" | flowMapping => "while parsing a flow mapping"

inductive Problem where
  | control | tokenStart | missingColon | blockEntry | blockKey | blockValue
  | directiveName | directiveLetter | directiveUnknown | lineEnd | versionLong | versionMissing | versionDot
  | blank | blankOrBreak | exclamation | uri | octet | leadingOctet | trailingOctet | closingAngle | anchorName
  | indentZero | indentTab | documentIndicator | streamEnd | escape | hexadecimal | codePoint | colon | plainTab
  | documentStart | versionTwice | version | tagTwice | tagHandle | content | key | flowMappingEnd | unknownAnchor
  deriving DecidableEq, Repr

def Problem.text : Problem → String
  | control => "control characters are not allowed" | tokenStart => "found character that cannot start any token"
  | missingColon => "could not find expected ':'"
  | blockEntry => "block sequence entries are not allowed in this context"
  | blockKey => "mapping keys are not allowed in this context"
  | blockValue => "mapping values are not allowed in this context"
  | directiveName => "could not find expected directive name"
  | directiveLetter => "found unexpected non-alphabetical character"
  | directiveUnknown => "found unknown directive name" | lineEnd => "did not find expected comment or line break"
  | versionLong => "found extremely long version number" | versionMissing => "did not find expected version number"
  | versionDot => "did not find expected digit or '.' character" | blank => "did not find expected whitespace"
  | blankOrBreak => "did not find expected whitespace or line break" | exclamation => "did not find expected '!'"
  | uri => "did not find expected tag URI" | octet => "did not find URI escaped octet"
  | leadingOctet => "found an incorrect leading UTF-8 octet"
  | trailingOctet => "found an incorrect trailing UTF-8 octet" | closingAngle => "did not find the expected '>'"
  | anchorName => "did not find expected alphabetic or numeric character"
  | indentZero => "found an indentation indicator equal to 0"
  | indentTab => "found a tab character where an indentation space is expected"
  | documentIndicator => "found unexpected document indicator" | streamEnd => "found unexpected end of stream"
  | escape => "found unknown escape character" | hexadecimal => "did not find expected hexdecimal number"
  | codePoint => "found invalid Unicode character escape code" | colon => "found unexpected ':'"
  | plainTab => "found a tab character that violates indentation"
  | documentStart => "did not find expected <document start>" | versionTwice => "found duplicate %YAML directive"
  | version => "found incompatible YAML document" | tagTwice => "found duplicate %TAG directive"
  | tagHandle => "found undefined tag handle" | content => "did not find expected node content"
  | key => "did not find expected key" | flowMappingEnd => "did not find expected ',' or '\x7d'"
  | unknownAnchor => "unknown anchor"

structure Fault where
  problem : Problem
  place : Mark := {}
  -- A character that may not stand in a text at all is placed by its byte.
  offset : Nat := 0
  during : Option (Activity × Mark) := none
  deriving DecidableEq, Repr

def Fault.message (f : Fault) : String :=
  let place := if f.place.isFirst && f.offset ≠ 0 then s!" at position {f.offset}" else f.place.suffix
  let context := match f.during with
    | none => ""
    | some (activity,start) =>
      let same := start.line = f.place.line && start.column = f.place.column
      s!", {activity.text}" ++ (if same then "" else start.suffix)
  f.problem.text ++ place ++ context

end JoinTree.Yaml
