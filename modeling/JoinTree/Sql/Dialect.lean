import JoinTree.Text.Case
import JoinTree.Text.Letter

namespace JoinTree.Sql

inductive Dialect where
  | clickHouse | generic | snowflake
  deriving DecidableEq, Repr

namespace Dialect

def name : Dialect → String
  | clickHouse => "clickhouse" | generic => "generic" | snowflake => "snowflake"

def ofName? (s : String) : Option Dialect :=
  [clickHouse, generic, snowflake].find? (·.name = Text.lower s)

def identQuote : Dialect → Char
  | clickHouse => '\x60' | generic | snowflake => '"'

-- A quote inside the name is written with a backslash in front in the ClickHouse dialect, twice elsewhere.
def quoteIdent (d : Dialect) (ident : String) : String :=
  let q := d.identQuote
  let inner := ident.toList.flatMap fun c =>
    if c = q then (match d with | clickHouse => ['\\', q] | _ => [q, q]) else [c]
  .ofList (q :: inner ++ [q])

-- Characters of bare names.

def isPlainLetter (c : Char) : Bool := c.isAlpha || c = '_'

def startsName : Dialect → Char → Bool
  | generic, c => Text.isAlphabetic c || c = '_' || c = '#' || c = '@'
  | _, c => isPlainLetter c

def continuesName : Dialect → Char → Bool
  | clickHouse, c => isPlainLetter c || c.isDigit
  | generic, c => Text.isAlphabetic c || c.isDigit || c = '@' || c = '$' || c = '#' || c = '_'
  | snowflake, c => isPlainLetter c || c.isDigit || c = '$'

def isGeneric (d : Dialect) : Bool := d = generic
def isClickHouse (d : Dialect) : Bool := d = clickHouse
def isSnowflake (d : Dialect) : Bool := d = snowflake

-- Literals and comments.

def hasBackslashEscapes : Dialect → Bool
  | generic => false | _ => true
def hasDigitSeparators : Dialect → Bool := isClickHouse
-- A slash and a star inside a comment open a comment of their own.
def nestsComments : Dialect → Bool
  | snowflake => false | _ => true
-- The text of a comment that starts with an exclamation mark counts.
def opensComments : Dialect → Bool := isGeneric
-- A comment behind the first word of a statement that starts with a plus sign is kept.
def keepsHints : Dialect → Bool := isGeneric

-- Expressions.

def hasLambdas : Dialect → Bool
  | snowflake => false | _ => true
def requiresIntervalUnit : Dialect → Bool := isClickHouse
def hasParametricCalls : Dialect → Bool
  | snowflake => false | _ => true
def hasAggregateFilter : Dialect → Bool := isGeneric
def hasNullTreatmentArgument : Dialect → Bool
  | clickHouse => false | _ => true
def hasAssignmentArguments : Dialect → Bool := isGeneric
def hasShifts : Dialect → Bool := isGeneric
-- Brackets and colons lead into semi-structured values.
def hasPathAccess : Dialect → Bool := isSnowflake
def hasSubqueryArguments : Dialect → Bool := isSnowflake

-- Queries.

def hasFromFirst : Dialect → Bool
  | snowflake => false | _ => true
def hasEmptyProjection : Dialect → Bool := isGeneric
def hasTrailingTableCommas : Dialect → Bool := isSnowflake
def hasTrailingProjectionCommas : Dialect → Bool
  | clickHouse => false | _ => true
def unwrapsParenthesisedTables : Dialect → Bool
  | clickHouse => false | _ => true
def hasBareValuesTable : Dialect → Bool
  | clickHouse => false | _ => true
def hasPipeSteps : Dialect → Bool := isGeneric
def hasRowPatterns : Dialect → Bool
  | clickHouse => false | _ => true
-- Without it, `a JOIN b JOIN c ON x ON y` nests to the right.
def joinsLeftToRight : Dialect → Bool
  | snowflake => false | _ => true

end Dialect

end JoinTree.Sql
