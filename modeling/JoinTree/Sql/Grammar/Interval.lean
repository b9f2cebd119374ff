import JoinTree.Sql.Grammar.Value

/-!
Intervals of time, and the parts of a time.
-/

namespace JoinTree.Sql.Reading

private def isTimeUnit (k : Keyword) : Bool := [
  .YEAR, .YEARS, .MONTH, .MONTHS, .WEEK, .WEEKS, .DAY, .DAYS, .HOUR, .HOURS, .MINUTE, .MINUTES, .SECOND, .SECONDS,
  .CENTURY, .DECADE, .DOW, .DOY, .EPOCH, .ISODOW, .ISOYEAR, .JULIAN, .MICROSECOND, .MICROSECONDS, .MILLENIUM,
  .MILLENNIUM, .MILLISECOND, .MILLISECONDS, .NANOSECOND, .NANOSECONDS, .QUARTER, .TIMEZONE, .TIMEZONE_HOUR,
  .TIMEZONE_MINUTE].contains k

private def isTimePart (k : Keyword) : Bool :=
  isTimeUnit k || [.DAYOFWEEK, .DAYOFYEAR, .DATE, .DATETIME, .ISOWEEK, .TIME, .TIMEZONE_ABBR, .TIMEZONE_REGION].contains k

def timePart (d : Dialect) : Reading String := do
  match ← token? with
  | some (.word v q k) =>
    if let some k := k.filter isTimePart then
      skip
      if k = .WEEK then
        if ← provided d.isGeneric (symbolAhead .lparen) then return s!"WEEK({← parenthesised identText})"
      return k.text
    else if d.isClickHouse then expected "date/time field"
    else skip; return (Ident.mk v q).text
  | some (.string _) => if d.isClickHouse then expected "date/time field" else return (← ident).text
  | _ => expected "date/time field"

private def length? : Reading (Option Nat) := do
  if ← symbolAhead .lparen then some <$> parenthesised naturalNumber else pure none

-- What follows the word INTERVAL. `start` reads an operand without the operators behind it.
def intervalOf (g : Grammar) (start : Reading Expr) : Reading Expr := do
  let value ← if g.dialect.requiresIntervalUnit then g.expr else start
  let opening := s!"INTERVAL {value.text}"
  if !(← ahead?).any isTimeUnit then
    if g.dialect.requiresIntervalUnit then refuse "INTERVAL requires a unit after the literal value"
    return .other (opening ++ (← rest))
  let unit ← timePart g.dialect
  if unit ≠ "SECOND" then return .other s!"{opening} {unit}{← rest}"
  if !(← symbolAhead .lparen) then return .other s!"{opening} {unit}"
  let precision ← parenthesised do
    let p ← naturalNumber
    if ← symbol? .comma then pure s!"({p}, {← naturalNumber})" else pure s!"({p})"
  return .other s!"{opening} {unit} {precision}"
where
  rest : Reading String := do
    let precision := ((← length?).map fun n => s!" ({n})").getD ""
    if !(← keyword? .TO) then return precision
    let last ← timePart g.dialect
    let fraction ← if last = "SECOND" then length? else pure none
    return s!"{precision} TO {last}" ++ (fraction.map fun n => s!" ({n})").getD ""

end JoinTree.Sql.Reading
