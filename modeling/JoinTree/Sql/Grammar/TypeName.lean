import JoinTree.Sql.Grammar.Column

/-!
Names of types. An element type may be closed by the first half of `>>`; the second half then closes the type around it.
-/

namespace JoinTree.Sql

-- The type of a cast or in front of a literal. An interval type and a type that the grammar does not know cannot
-- stand in front of a literal.
inductive TypeName where
  | known (text : String) | interval (text : String) | custom (text : String)
  deriving DecidableEq, Repr

def TypeName.text : TypeName → String
  | known s | interval s | custom s => s

namespace Reading

private def optionalMaxLength (units : Bool) : Reading String := do
  if !(← symbolAhead .lparen) then return ""
  parenthesised do
    if ← keyword? .MAX then return "(MAX)"
    let n ← naturalNumber
    let unit := match ← if units then oneOf? [.CHARACTERS, .OCTETS] else pure none with
      | some k => " " ++ k.text
      | none => ""
    return s!"({n}{unit})"

private def optionalScale : Reading String := do
  if !(← symbolAhead .lparen) then return ""
  parenthesised do
    let p ← naturalNumber
    if ← symbol? .comma then return s!"({p},{← integer})" else return s!"({p})"

private def unsigned (text : String) : Reading String :=
  return text ++ (if ← keyword? .UNSIGNED then " UNSIGNED" else "")

private def zone : Reading String := do
  if ← keyword? .WITH then keywords [.TIME, .ZONE]; return " WITH TIME ZONE"
  if ← keyword? .WITHOUT then keywords [.TIME, .ZONE]; return " WITHOUT TIME ZONE"
  return ""

private def characters (name : String) : Reading String := do
  if ← keyword? .VARYING then return s!"{name} VARYING{← optionalMaxLength true}"
  if ← keywords? [.LARGE, .OBJECT] then return s!"{name} LARGE OBJECT{← optionalLength}"
  return name ++ (← optionalMaxLength true)

private def enumeration (d : Dialect) (name : String) : Reading String := do
  let items ← parenthesised (texts do
    let label := quotedText '\'' (← literalString d)
    if ← symbol? .eq then return s!"{label} = {← signedNumberText}" else return label)
  return s!"{name}({items})"

private def strings (ls : List Lexeme) : Except SyntaxError (List String × List Lexeme) :=
  match ls with
  | l :: behind :: rest =>
    match l.token, behind.token with
    | .string s, .symbol .comma => (strings rest).map fun (more, rest) => (quotedText '\'' s :: more, rest)
    | .string s, .symbol .rparen => .ok ([quotedText '\'' s], rest)
    | .string _, _ => .error (.expected ", or \x7d" (some behind))
    | _, _ => .error (.expected "a string" (some l))
  | [l] =>
    match l.token with
    | .string _ => .error (.expected ", or \x7d" none)
    | _ => .error (.expected "a string" (some l))
  | [] => .error (.expected "a string" none)

def modifiers (ls : List Lexeme) : Except SyntaxError (List String × List Lexeme) :=
  match ls with
  | [] => .error (.expected "type modifiers" none)
  | l :: rest =>
    let more (s : String) := (modifiers rest).map fun (r : List String × List Lexeme) => (s :: r.1, r.2)
    match l.token with
    | .word .. => more l.token.text
    | .number s _ | .string s => more s
    | .symbol .comma => modifiers rest
    | .symbol .rparen => .ok ([], rest)
    | _ => .error (.expected "type modifiers" (some l))

def custom (g : Grammar) : Reading TypeName := do
  let name ← nameText g
  let parts ← if ← symbol? .lparen then modifiers else pure []
  return .custom (name ++ (if parts.isEmpty then "" else s!"({commaSeparated parts})"))

private def intervalFields : Reading String := do
  let upTo (ks : List Keyword) : Reading String := do
    if ← keyword? .TO then return s!" TO {(← oneOf ks).text}" else return ""
  match ← oneOf? [.YEAR, .DAY, .HOUR, .MINUTE, .MONTH, .SECOND] with
  | some .YEAR => do
    if ← keyword? .TO then keyword .MONTH; return " YEAR TO MONTH"
    return " YEAR"
  | some .DAY => return s!" DAY{← upTo [.HOUR, .MINUTE, .SECOND]}"
  | some .HOUR => return s!" HOUR{← upTo [.MINUTE, .SECOND]}"
  | some .MINUTE => do
    if ← keyword? .TO then keyword .SECOND; return " MINUTE TO SECOND"
    return " MINUTE"
  | some k => return " " ++ k.text
  | none => return ""

-- Types whose name is all there is to them, as they are written.
def simpleTypeText? (d : Dialect) : Keyword → Option String
  | .FLOAT32 => "Float32" | .DATE32 => "Date32" | .INT16 => "Int16" | .INT32 => "Int32" | .INT128 => "Int128"
  | .INT256 => "Int256" | .UINT8 => "UInt8" | .UINT16 => "UInt16" | .UINT32 => "UInt32" | .UINT64 => "UInt64"
  | .UINT128 => "UInt128" | .UINT256 => "UInt256"
  | .TSVECTOR => if d.isGeneric then some "TSVECTOR" else none
  | .TSQUERY => if d.isGeneric then some "TSQUERY" else none
  | k =>
    if [.BOOLEAN, .BOOL, .FLOAT4, .FLOAT64, .FLOAT8, .UUID, .DATE, .JSON, .JSONB, .REGCLASS, .TEXT, .TINYTEXT,
        .MEDIUMTEXT, .LONGTEXT, .BYTEA, .TRIGGER, .TINYBLOB, .MEDIUMBLOB, .LONGBLOB, .INT64, .HUGEINT, .UBIGINT,
        .UHUGEINT, .USMALLINT, .UTINYINT].contains k
    then some k.text else none

def isInteger (k : Keyword) : Bool :=
  [.TINYINT, .SMALLINT, .MEDIUMINT, .INT, .INT2, .INT4, .INT8, .INTEGER, .BIGINT].contains k
def hasLength (k : Keyword) : Bool :=
  [.CLOB, .BLOB, .BINARY, .BYTES, .STRING, .TIMESTAMP_NTZ, .DATETIME, .VARBIT].contains k
def hasScale (k : Keyword) : Bool := [.NUMERIC, .BIGNUMERIC, .BIGDECIMAL].contains k

-- A type, and whether the bracket that closes it was the first half of `>>`.
abbrev OpenType := TypeName × Bool

private def closingBracket (closed : Bool) : Reading Bool := do
  if closed then return false
  if ← symbol? .gt then return false
  if ← symbol? .shiftRight then return true
  expected ">"

def whole (p : Reading OpenType) : Reading TypeName := do
  let (t, closes) ← p
  if closes then throw (.unmatchedBracket t.text (((← token?).map Token.text).getD "EOF"))
  return t

-- Fields have names where two words stand in a row.
private def field (g : Grammar) (type : Reading OpenType) : Reading (String × Bool) := do
  let named := match ← token?, ← tokenAt? 1 with
    | some (.word ..), some (.word ..) => true
    | _, _ => false
  let name ← if named then do pure ((← identText) ++ " ") else pure ""
  let (t, closes) ← type
  return (s!"{name}{t.text}{spaced (← worded? [.OPTIONS] (options g))}", closes)

-- Fields between angle brackets, empty if there are none. The second half of `>>` ends the list.
private def bracketedFields (g : Grammar) (type : Reading OpenType) : Reading (List String × Bool) := do
  if !(← symbol? .lt) then return ([], false)
  let (fields, _, closed) ← iterate (α := List String × Bool × Bool) (fun (fields, more, _) => do
    if !more then return none
    let (f, closes) ← field g type
    return some (fields ++ [f], ← provided (!closes) (symbol? .comma), closes)) ([], true, false)
  return (fields, ← closingBracket closed)

private def structType (fields : List String) : String :=
  if fields.isEmpty then "STRUCT" else s!"STRUCT<{commaSeparated fields}>"

-- A type without its dimensions. `inner` reads an element type.
def unbracketed (g : Grammar) (inner : Reading OpenType) : Reading OpenType := do
  let d := g.dialect
  let element : Reading String := TypeName.text <$> whole inner
  let closed (t : TypeName) : OpenType := (t, false)
  let named (p : Reading String) : Reading OpenType := do skip; return closed (.known (← p))
  let listed (name : String) (item : Reading String) : Reading OpenType :=
    named do return s!"{name}({← parenthesised (texts item)})"
  let free : Reading OpenType := closed <$> custom g
  let unlessSnowflake (p : Reading OpenType) : Reading OpenType := if d.isSnowflake then free else p
  match ← token? with
  | some (.word _ _ none) => free
  | some (.word _ _ (some k)) =>
    if let some text := simpleTypeText? d k then named (pure text)
    else if isInteger k then named do
      let text ← unsigned (k.text ++ (← optionalLength))
      if d.isGeneric && !text.endsWith " UNSIGNED" then discard (keyword? .SIGNED)
      pure text
    else if hasLength k then named (return k.text ++ (← optionalLength))
    else if hasScale k then named (return k.text ++ (← optionalScale))
    else match k with
      | .VARCHAR | .NVARCHAR => named (return k.text ++ (← optionalMaxLength true))
      | .VARBINARY => named (return k.text ++ (← optionalMaxLength false))
      | .FLOAT | .DECIMAL | .DEC => named do unsigned (k.text ++ (← optionalScale))
      | .REAL => named (unsigned "REAL")
      | .DOUBLE => named do
        if ← keyword? .PRECISION then unsigned "DOUBLE PRECISION" else unsigned ("DOUBLE" ++ (← optionalScale))
      | .CHAR | .CHARACTER => named (characters k.text)
      | .BIT => named do return (if ← keyword? .VARYING then "BIT VARYING" else "BIT") ++ (← optionalLength)
      | .TIMESTAMP | .TIME => named do return k.text ++ (← optionalLength) ++ (← zone)
      | .TIMESTAMPTZ | .TIMETZ => named do return k.text ++ (← optionalLength)
      | .DATETIME64 => named (parenthesised do
        let p ← naturalNumber
        if ← symbol? .comma then return s!"DateTime64({p}, '{← literalString d}')" else return s!"DateTime64({p})")
      | .FIXEDSTRING => named do return s!"FixedString({← parenthesised naturalNumber})"
      | .ENUM | .ENUM8 | .ENUM16 => named (enumeration d k.text)
      | .SET => named do
        symbol .lparen
        return s!"SET({commaSeparated (← strings)})"
      | .SIGNED | .UNSIGNED => named do return k.text ++ (if ← keyword? .INTEGER then " INTEGER" else "")
      | .INTERVAL => do
        skip
        if !d.isGeneric then return closed (.interval "INTERVAL")
        let fields ← intervalFields
        return closed (.interval s!"INTERVAL{fields}{← optionalLength}")
      | .ARRAY =>
        match d with
        | .snowflake => named (pure "ARRAY")
        | .clickHouse => named do return s!"Array({← parenthesised element})"
        | .generic => do
          skip
          symbol .lt
          let (t, closes) ← inner
          return (.known s!"ARRAY<{t.text}>", ← closingBracket closes)
      | .STRUCT =>
        if !d.isGeneric then free
        else
          skip
          let (fields, closes) ← bracketedFields g inner
          return (.known (structType fields), closes)
      | .UNION => if d.isGeneric then listed "UNION" do return s!"{← identText} {← element}" else free
      | .TABLE => named do
        if ← symbolAhead .lparen then return s!"TABLE({← parenthesised (texts (column g element))})" else return "TABLE"
      | .ANY =>
        if (← tokenAt? 1).bind Token.keyword? = some .TYPE then named do skip; return "ANY TYPE" else free
      | .NULLABLE => unlessSnowflake (named do return s!"Nullable({← parenthesised element})")
      | .LOWCARDINALITY => unlessSnowflake (named do return s!"LowCardinality({← parenthesised element})")
      | .MAP => unlessSnowflake (named (parenthesised do
        let key ← element
        symbol .comma
        return s!"Map({key}, {← element})"))
      | .NESTED => unlessSnowflake (listed "Nested" (column g element))
      | .TUPLE => unlessSnowflake (listed "Tuple" (Prod.fst <$> field g inner))
      | _ => free
  | _ => expected "a data type name"

def dimension (t : TypeName) : Reading (Option TypeName) := do
  if !(← symbol? .lbracket) then return none
  let size ← attempt naturalNumber
  symbol .rbracket
  return some (.known (t.text ++ "[" ++ (size.map toString).getD "" ++ "]"))

-- Element types nest no deeper than there are lexemes to read.
def typeWithin (g : Grammar) : (n : Nat) → Reading OpenType
  | 0 => expected "a data type name"
  | n + 1 => do
    let (base, closes) ← unbracketed g (typeWithin g n)
    if g.dialect.isGeneric then return (← iterate dimension base, closes) else return (base, closes)

def typeName (g : Grammar) : Reading TypeName := fun ls => whole (typeWithin g ls.length) ls

def typeText (g : Grammar) : Reading String := TypeName.text <$> typeName g

-- A value of a structure, perhaps with the types of its fields. The word STRUCT is read already.
def structOf (g : Grammar) : Reading String := do
  let (fields, closes) ← fun ls => bracketedFields g (typeWithin g ls.length) ls
  if closes then refuse "unmatched > in STRUCT literal"
  let items ← parenthesised (texts do
    let e ← g.exprText
    if !(← isAhead .AS) then return e
    if !fields.isEmpty then refuse "Typed syntax does not allow AS"
    skip
    return s!"{e} AS {← identText}")
  return s!"{structType fields}({items})"

end Reading

end JoinTree.Sql
