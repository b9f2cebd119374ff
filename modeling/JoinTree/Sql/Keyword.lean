import JoinTree.Text.Case

namespace JoinTree.Sql

-- The words with a meaning in the grammar of some dialect.
inductive Keyword where
  | ABORT | ABSENT | ACTION | AFTER | AGAINST | AGGREGATE | ALIAS | ALL | ALTER | ALWAYS | ANALYZE | AND
  | ANTI | ANY | APPLY | ARRAY | AS | ASC | ASOF | AT | AUTO | AUTOINCREMENT | AUTO_INCREMENT | BASE64
  | BEFORE | BERNOULLI | BETWEEN | BIGDECIMAL | BIGINT | BIGNUMERIC | BINARY | BIT | BLOB | BLOCK | BOOL
  | BOOLEAN | BOTH | BROWSE | BUCKET | BY | BYTEA | BYTES | CALL | CASCADE | CASE | CAST | CEIL | CENTURY
  | CHAR | CHARACTER | CHARACTERS | CHECK | CLOB | CLUSTER | COLLATE | COLUMN | COLUMNS | COMMENT | CONFLICT
  | CONNECT | CONNECT_BY_ROOT | CONSTRAINT | CONVERT | COUNT | CREATE | CROSS | CUBE | CURRENT
  | CURRENT_CATALOG | CURRENT_DATE | CURRENT_TIME | CURRENT_TIMESTAMP | CURRENT_USER | DATABASE | DATE
  | DATE32 | DATETIME | DATETIME64 | DAY | DAYOFWEEK | DAYOFYEAR | DAYS | DEC | DECADE | DECIMAL | DEFAULT
  | DEFERRABLE | DEFERRED | DEFINE | DELAYED | DELETE | DESC | DESCRIBE | DIMENSIONS | DIRECTORY | DISTINCT
  | DISTRIBUTE | DIV | DO | DOUBLE | DOW | DOY | DROP | DUPLICATE | ELEMENTS | ELSE | EMPTY | END | ENFORCED
  | ENGINE | ENUM | ENUM16 | ENUM8 | EPHEMERAL | EPOCH | ERROR | ESCAPE | EXCEPT | EXCLUDE | EXISTS
  | EXPANSION | EXPLAIN | EXPLICIT | EXTEND | EXTRACT | FACTS | FAIL | FALSE | FETCH | FILL | FILTER | FIRST
  | FIXEDSTRING | FLOAT | FLOAT32 | FLOAT4 | FLOAT64 | FLOAT8 | FLOOR | FN | FOLLOWING | FOR | FORMAT | FROM
  | FULL | FUNCTION | GENERATED | GLOBAL | GRANT | GROUP | GROUPING | GROUPS | HAVING | HIGH_PRIORITY | HOUR
  | HOURS | HUGEINT | IDENTITY | IF | IGNORE | ILIKE | IMMEDIATE | IN | INCLUDE | INCLUDE_NULL_VALUES
  | INCREMENT | INDEX | INITIALLY | INNER | INSERT | INT | INT128 | INT16 | INT2 | INT256 | INT32 | INT4
  | INT64 | INT8 | INTEGER | INTERPOLATE | INTERSECT | INTERVAL | INTO | INVISIBLE | IS | ISODOW | ISOWEEK
  | ISOYEAR | JOIN | JSON | JSONB | JSON_TABLE | JULIAN | KEY | LAMBDA | LANGUAGE | LARGE | LAST | LATERAL
  | LEADING | LEFT | LIKE | LIMIT | LOCAL | LOCALTIME | LOCALTIMESTAMP | LOCKED | LONGBLOB | LONGTEXT
  | LOWCARDINALITY | LOW_PRIORITY | MAP | MATCH | MATCHED | MATCHES | MATCH_CONDITION | MATCH_RECOGNIZE
  | MATERIALIZED | MAX | MEASURES | MEDIUMBLOB | MEDIUMINT | MEDIUMTEXT | MEMBER | MERGE | METRICS
  | MICROSECOND | MICROSECONDS | MILLENIUM | MILLENNIUM | MILLISECOND | MILLISECONDS | MIN | MINUS | MINUTE
  | MINUTES | MODE | MONTH | MONTHS | NAME | NANOSECOND | NANOSECONDS | NATURAL | NESTED | NEXT | NFC | NFD
  | NFKC | NFKD | NO | NOCYCLE | NOORDER | NORMALIZED | NOT | NOTHING | NOWAIT | NULL | NULLABLE
  | NULLS | NUMERIC | NVARCHAR | OBJECT | OCTETS | OF | OFFSET | OMIT | ON | ONE | ONLY | OPEN | OPENJSON
  | OPERATOR | OPTIONS | OR | ORDER | ORDINALITY | OUT | OUTER | OUTPUT | OVER | OVERFLOW | OVERLAPS | OVERLAY
  | OVERWRITE | PARTIAL | PARTITION | PASSING | PAST | PATH | PATTERN | PER | PERCENT | PIVOT | PLACING
  | POSITION | PRECEDING | PRECISION | PREWHERE | PRIMARY | PRIOR | PURGE | QUALIFY | QUARTER | QUERY | RANGE
  | RAW | REAL | RECURSIVE | REFERENCES | REGCLASS | REGEXP | RENAME | REPEATABLE | REPLACE | RESPECT
  | RESTRICT | RETURNING | REVOKE | RIGHT | RLIKE | ROLLBACK | ROLLUP | ROOT | ROW | ROWS | SAFE_CAST | SAMPLE
  | SCHEMA | SECOND | SECONDS | SEED | SELECT | SEMANTIC_VIEW | SEMI | SEPARATOR | SESSION_USER | SET | SETS
  | SETTINGS | SHARE | SHOW | SIGNED | SIMILAR | SIMPLE | SKIP | SMALLINT | SOME | SORT | SOURCE | SRID
  | START | STEP | STORED | STRAIGHT_JOIN | STRING | STRUCT | SUBSTR | SUBSTRING | SYSTEM
  | SYSTEM_TIME | TABLE | TABLESAMPLE | TARGET | TEMP | TEMPORARY | TEXT | THEN | TIES | TIME | TIMESTAMP
  | TIMESTAMPTZ | TIMESTAMP_NTZ | TIMETZ | TIMEZONE | TIMEZONE_ABBR | TIMEZONE_HOUR | TIMEZONE_MINUTE
  | TIMEZONE_REGION | TINYBLOB | TINYINT | TINYTEXT | TO | TOP | TOTALS | TRAILING | TRIGGER | TRIM | TRUE
  | TRUNCATE | TRY_CAST | TRY_CONVERT | TSQUERY | TSVECTOR | TUPLE | TYPE | UBIGINT | UHUGEINT | UINT128
  | UINT16 | UINT256 | UINT32 | UINT64 | UINT8 | UNBOUNDED | UNION | UNIQUE | UNKNOWN | UNLOGGED | UNMATCHED
  | UNNEST | UNPIVOT | UNSIGNED | UPDATE | USE | USER | USING | USMALLINT | UTINYINT | UUID | VALUE | VALUES
  | VARBINARY | VARBIT | VARCHAR | VARYING | VIEW | VIRTUAL | WEEK | WEEKS | WHEN | WHENEVER | WHERE | WINDOW
  | WITH | WITHIN | WITHOUT | WITHOUT_ARRAY_WRAPPER | XML | XMLNAMESPACES | XMLTABLE | XOR | YEAR | YEARS
  | ZONE
  deriving DecidableEq, Repr

namespace Keyword

def text : Keyword → String
  | .ABORT => "ABORT" | .ABSENT => "ABSENT" | .ACTION => "ACTION" | .AFTER => "AFTER" | .AGAINST => "AGAINST"
  | .AGGREGATE => "AGGREGATE" | .ALIAS => "ALIAS" | .ALL => "ALL" | .ALTER => "ALTER" | .ALWAYS => "ALWAYS"
  | .ANALYZE => "ANALYZE" | .AND => "AND" | .ANTI => "ANTI" | .ANY => "ANY" | .APPLY => "APPLY"
  | .ARRAY => "ARRAY" | .AS => "AS" | .ASC => "ASC" | .ASOF => "ASOF" | .AT => "AT" | .AUTO => "AUTO"
  | .AUTOINCREMENT => "AUTOINCREMENT" | .AUTO_INCREMENT => "AUTO_INCREMENT" | .BASE64 => "BASE64"
  | .BEFORE => "BEFORE" | .BERNOULLI => "BERNOULLI" | .BETWEEN => "BETWEEN" | .BIGDECIMAL => "BIGDECIMAL"
  | .BIGINT => "BIGINT" | .BIGNUMERIC => "BIGNUMERIC" | .BINARY => "BINARY" | .BIT => "BIT" | .BLOB => "BLOB"
  | .BLOCK => "BLOCK" | .BOOL => "BOOL" | .BOOLEAN => "BOOLEAN" | .BOTH => "BOTH" | .BROWSE => "BROWSE"
  | .BUCKET => "BUCKET" | .BY => "BY" | .BYTEA => "BYTEA" | .BYTES => "BYTES" | .CALL => "CALL"
  | .CASCADE => "CASCADE" | .CASE => "CASE" | .CAST => "CAST" | .CEIL => "CEIL" | .CENTURY => "CENTURY"
  | .CHAR => "CHAR" | .CHARACTER => "CHARACTER" | .CHARACTERS => "CHARACTERS" | .CHECK => "CHECK"
  | .CLOB => "CLOB" | .CLUSTER => "CLUSTER" | .COLLATE => "COLLATE" | .COLUMN => "COLUMN"
  | .COLUMNS => "COLUMNS" | .COMMENT => "COMMENT" | .CONFLICT => "CONFLICT" | .CONNECT => "CONNECT"
  | .CONNECT_BY_ROOT => "CONNECT_BY_ROOT" | .CONSTRAINT => "CONSTRAINT" | .CONVERT => "CONVERT"
  | .COUNT => "COUNT" | .CREATE => "CREATE" | .CROSS => "CROSS" | .CUBE => "CUBE" | .CURRENT => "CURRENT"
  | .CURRENT_CATALOG => "CURRENT_CATALOG" | .CURRENT_DATE => "CURRENT_DATE" | .CURRENT_TIME => "CURRENT_TIME"
  | .CURRENT_TIMESTAMP => "CURRENT_TIMESTAMP" | .CURRENT_USER => "CURRENT_USER" | .DATABASE => "DATABASE"
  | .DATE => "DATE" | .DATE32 => "DATE32" | .DATETIME => "DATETIME" | .DATETIME64 => "DATETIME64"
  | .DAY => "DAY" | .DAYOFWEEK => "DAYOFWEEK" | .DAYOFYEAR => "DAYOFYEAR" | .DAYS => "DAYS" | .DEC => "DEC"
  | .DECADE => "DECADE" | .DECIMAL => "DECIMAL" | .DEFAULT => "DEFAULT" | .DEFERRABLE => "DEFERRABLE"
  | .DEFERRED => "DEFERRED" | .DEFINE => "DEFINE" | .DELAYED => "DELAYED" | .DELETE => "DELETE"
  | .DESC => "DESC" | .DESCRIBE => "DESCRIBE" | .DIMENSIONS => "DIMENSIONS" | .DIRECTORY => "DIRECTORY"
  | .DISTINCT => "DISTINCT" | .DISTRIBUTE => "DISTRIBUTE" | .DIV => "DIV" | .DO => "DO" | .DOUBLE => "DOUBLE"
  | .DOW => "DOW" | .DOY => "DOY" | .DROP => "DROP" | .DUPLICATE => "DUPLICATE" | .ELEMENTS => "ELEMENTS"
  | .ELSE => "ELSE" | .EMPTY => "EMPTY" | .END => "END" | .ENFORCED => "ENFORCED" | .ENGINE => "ENGINE"
  | .ENUM => "ENUM" | .ENUM16 => "ENUM16" | .ENUM8 => "ENUM8" | .EPHEMERAL => "EPHEMERAL" | .EPOCH => "EPOCH"
  | .ERROR => "ERROR" | .ESCAPE => "ESCAPE" | .EXCEPT => "EXCEPT" | .EXCLUDE => "EXCLUDE"
  | .EXISTS => "EXISTS" | .EXPANSION => "EXPANSION" | .EXPLAIN => "EXPLAIN" | .EXPLICIT => "EXPLICIT"
  | .EXTEND => "EXTEND" | .EXTRACT => "EXTRACT" | .FACTS => "FACTS" | .FAIL => "FAIL" | .FALSE => "FALSE"
  | .FETCH => "FETCH" | .FILL => "FILL" | .FILTER => "FILTER" | .FIRST => "FIRST"
  | .FIXEDSTRING => "FIXEDSTRING" | .FLOAT => "FLOAT" | .FLOAT32 => "FLOAT32" | .FLOAT4 => "FLOAT4"
  | .FLOAT64 => "FLOAT64" | .FLOAT8 => "FLOAT8" | .FLOOR => "FLOOR" | .FN => "FN" | .FOLLOWING => "FOLLOWING"
  | .FOR => "FOR" | .FORMAT => "FORMAT" | .FROM => "FROM" | .FULL => "FULL" | .FUNCTION => "FUNCTION"
  | .GENERATED => "GENERATED" | .GLOBAL => "GLOBAL" | .GRANT => "GRANT" | .GROUP => "GROUP"
  | .GROUPING => "GROUPING" | .GROUPS => "GROUPS" | .HAVING => "HAVING" | .HIGH_PRIORITY => "HIGH_PRIORITY"
  | .HOUR => "HOUR" | .HOURS => "HOURS" | .HUGEINT => "HUGEINT" | .IDENTITY => "IDENTITY" | .IF => "IF"
  | .IGNORE => "IGNORE" | .ILIKE => "ILIKE" | .IMMEDIATE => "IMMEDIATE" | .IN => "IN" | .INCLUDE => "INCLUDE"
  | .INCLUDE_NULL_VALUES => "INCLUDE_NULL_VALUES" | .INCREMENT => "INCREMENT" | .INDEX => "INDEX"
  | .INITIALLY => "INITIALLY" | .INNER => "INNER" | .INSERT => "INSERT" | .INT => "INT" | .INT128 => "INT128"
  | .INT16 => "INT16" | .INT2 => "INT2" | .INT256 => "INT256" | .INT32 => "INT32" | .INT4 => "INT4"
  | .INT64 => "INT64" | .INT8 => "INT8" | .INTEGER => "INTEGER" | .INTERPOLATE => "INTERPOLATE"
  | .INTERSECT => "INTERSECT" | .INTERVAL => "INTERVAL" | .INTO => "INTO" | .INVISIBLE => "INVISIBLE"
  | .IS => "IS" | .ISODOW => "ISODOW" | .ISOWEEK => "ISOWEEK" | .ISOYEAR => "ISOYEAR" | .JOIN => "JOIN"
  | .JSON => "JSON" | .JSONB => "JSONB" | .JSON_TABLE => "JSON_TABLE" | .JULIAN => "JULIAN" | .KEY => "KEY"
  | .LAMBDA => "LAMBDA" | .LANGUAGE => "LANGUAGE" | .LARGE => "LARGE" | .LAST => "LAST"
  | .LATERAL => "LATERAL" | .LEADING => "LEADING" | .LEFT => "LEFT" | .LIKE => "LIKE" | .LIMIT => "LIMIT"
  | .LOCAL => "LOCAL" | .LOCALTIME => "LOCALTIME" | .LOCALTIMESTAMP => "LOCALTIMESTAMP" | .LOCKED => "LOCKED"
  | .LONGBLOB => "LONGBLOB" | .LONGTEXT => "LONGTEXT" | .LOWCARDINALITY => "LOWCARDINALITY"
  | .LOW_PRIORITY => "LOW_PRIORITY" | .MAP => "MAP" | .MATCH => "MATCH" | .MATCHED => "MATCHED"
  | .MATCHES => "MATCHES" | .MATCH_CONDITION => "MATCH_CONDITION" | .MATCH_RECOGNIZE => "MATCH_RECOGNIZE"
  | .MATERIALIZED => "MATERIALIZED" | .MAX => "MAX" | .MEASURES => "MEASURES" | .MEDIUMBLOB => "MEDIUMBLOB"
  | .MEDIUMINT => "MEDIUMINT" | .MEDIUMTEXT => "MEDIUMTEXT" | .MEMBER => "MEMBER" | .MERGE => "MERGE"
  | .METRICS => "METRICS" | .MICROSECOND => "MICROSECOND" | .MICROSECONDS => "MICROSECONDS"
  | .MILLENIUM => "MILLENIUM" | .MILLENNIUM => "MILLENNIUM" | .MILLISECOND => "MILLISECOND"
  | .MILLISECONDS => "MILLISECONDS" | .MIN => "MIN" | .MINUS => "MINUS" | .MINUTE => "MINUTE"
  | .MINUTES => "MINUTES" | .MODE => "MODE" | .MONTH => "MONTH" | .MONTHS => "MONTHS" | .NAME => "NAME"
  | .NANOSECOND => "NANOSECOND" | .NANOSECONDS => "NANOSECONDS" | .NATURAL => "NATURAL" | .NESTED => "NESTED"
  | .NEXT => "NEXT" | .NFC => "NFC" | .NFD => "NFD" | .NFKC => "NFKC" | .NFKD => "NFKD" | .NO => "NO"
  | .NOCYCLE => "NOCYCLE" | .NOORDER => "NOORDER" | .NORMALIZED => "NORMALIZED" | .NOT => "NOT"
  | .NOTHING => "NOTHING" | .NOWAIT => "NOWAIT" | .NULL => "NULL"
  | .NULLABLE => "NULLABLE" | .NULLS => "NULLS" | .NUMERIC => "NUMERIC" | .NVARCHAR => "NVARCHAR"
  | .OBJECT => "OBJECT" | .OCTETS => "OCTETS" | .OF => "OF" | .OFFSET => "OFFSET" | .OMIT => "OMIT"
  | .ON => "ON" | .ONE => "ONE" | .ONLY => "ONLY" | .OPEN => "OPEN" | .OPENJSON => "OPENJSON"
  | .OPERATOR => "OPERATOR" | .OPTIONS => "OPTIONS" | .OR => "OR" | .ORDER => "ORDER"
  | .ORDINALITY => "ORDINALITY" | .OUT => "OUT" | .OUTER => "OUTER" | .OUTPUT => "OUTPUT" | .OVER => "OVER"
  | .OVERFLOW => "OVERFLOW" | .OVERLAPS => "OVERLAPS" | .OVERLAY => "OVERLAY" | .OVERWRITE => "OVERWRITE"
  | .PARTIAL => "PARTIAL" | .PARTITION => "PARTITION" | .PASSING => "PASSING" | .PAST => "PAST"
  | .PATH => "PATH" | .PATTERN => "PATTERN" | .PER => "PER" | .PERCENT => "PERCENT" | .PIVOT => "PIVOT"
  | .PLACING => "PLACING" | .POSITION => "POSITION" | .PRECEDING => "PRECEDING" | .PRECISION => "PRECISION"
  | .PREWHERE => "PREWHERE" | .PRIMARY => "PRIMARY" | .PRIOR => "PRIOR" | .PURGE => "PURGE"
  | .QUALIFY => "QUALIFY" | .QUARTER => "QUARTER" | .QUERY => "QUERY" | .RANGE => "RANGE" | .RAW => "RAW"
  | .REAL => "REAL" | .RECURSIVE => "RECURSIVE" | .REFERENCES => "REFERENCES" | .REGCLASS => "REGCLASS"
  | .REGEXP => "REGEXP" | .RENAME => "RENAME" | .REPEATABLE => "REPEATABLE" | .REPLACE => "REPLACE"
  | .RESPECT => "RESPECT" | .RESTRICT => "RESTRICT" | .RETURNING => "RETURNING" | .REVOKE => "REVOKE"
  | .RIGHT => "RIGHT" | .RLIKE => "RLIKE" | .ROLLBACK => "ROLLBACK" | .ROLLUP => "ROLLUP" | .ROOT => "ROOT"
  | .ROW => "ROW" | .ROWS => "ROWS" | .SAFE_CAST => "SAFE_CAST" | .SAMPLE => "SAMPLE" | .SCHEMA => "SCHEMA"
  | .SECOND => "SECOND" | .SECONDS => "SECONDS" | .SEED => "SEED" | .SELECT => "SELECT"
  | .SEMANTIC_VIEW => "SEMANTIC_VIEW" | .SEMI => "SEMI" | .SEPARATOR => "SEPARATOR"
  | .SESSION_USER => "SESSION_USER" | .SET => "SET" | .SETS => "SETS" | .SETTINGS => "SETTINGS"
  | .SHARE => "SHARE" | .SHOW => "SHOW" | .SIGNED => "SIGNED" | .SIMILAR => "SIMILAR" | .SIMPLE => "SIMPLE"
  | .SKIP => "SKIP" | .SMALLINT => "SMALLINT" | .SOME => "SOME" | .SORT => "SORT" | .SOURCE => "SOURCE"
  | .SRID => "SRID" | .START => "START" | .STEP => "STEP" | .STORED => "STORED"
  | .STRAIGHT_JOIN => "STRAIGHT_JOIN" | .STRING => "STRING" | .STRUCT => "STRUCT" | .SUBSTR => "SUBSTR"
  | .SUBSTRING => "SUBSTRING" | .SYSTEM => "SYSTEM" | .SYSTEM_TIME => "SYSTEM_TIME" | .TABLE => "TABLE"
  | .TABLESAMPLE => "TABLESAMPLE" | .TARGET => "TARGET" | .TEMP => "TEMP" | .TEMPORARY => "TEMPORARY"
  | .TEXT => "TEXT" | .THEN => "THEN" | .TIES => "TIES" | .TIME => "TIME" | .TIMESTAMP => "TIMESTAMP"
  | .TIMESTAMPTZ => "TIMESTAMPTZ" | .TIMESTAMP_NTZ => "TIMESTAMP_NTZ" | .TIMETZ => "TIMETZ"
  | .TIMEZONE => "TIMEZONE" | .TIMEZONE_ABBR => "TIMEZONE_ABBR" | .TIMEZONE_HOUR => "TIMEZONE_HOUR"
  | .TIMEZONE_MINUTE => "TIMEZONE_MINUTE" | .TIMEZONE_REGION => "TIMEZONE_REGION" | .TINYBLOB => "TINYBLOB"
  | .TINYINT => "TINYINT" | .TINYTEXT => "TINYTEXT" | .TO => "TO" | .TOP => "TOP" | .TOTALS => "TOTALS"
  | .TRAILING => "TRAILING" | .TRIGGER => "TRIGGER" | .TRIM => "TRIM" | .TRUE => "TRUE"
  | .TRUNCATE => "TRUNCATE" | .TRY_CAST => "TRY_CAST" | .TRY_CONVERT => "TRY_CONVERT" | .TSQUERY => "TSQUERY"
  | .TSVECTOR => "TSVECTOR" | .TUPLE => "TUPLE" | .TYPE => "TYPE" | .UBIGINT => "UBIGINT"
  | .UHUGEINT => "UHUGEINT" | .UINT128 => "UINT128" | .UINT16 => "UINT16" | .UINT256 => "UINT256"
  | .UINT32 => "UINT32" | .UINT64 => "UINT64" | .UINT8 => "UINT8" | .UNBOUNDED => "UNBOUNDED"
  | .UNION => "UNION" | .UNIQUE => "UNIQUE" | .UNKNOWN => "UNKNOWN" | .UNLOGGED => "UNLOGGED"
  | .UNMATCHED => "UNMATCHED" | .UNNEST => "UNNEST" | .UNPIVOT => "UNPIVOT" | .UNSIGNED => "UNSIGNED"
  | .UPDATE => "UPDATE" | .USE => "USE" | .USER => "USER" | .USING => "USING" | .USMALLINT => "USMALLINT"
  | .UTINYINT => "UTINYINT" | .UUID => "UUID" | .VALUE => "VALUE" | .VALUES => "VALUES"
  | .VARBINARY => "VARBINARY" | .VARBIT => "VARBIT" | .VARCHAR => "VARCHAR" | .VARYING => "VARYING"
  | .VIEW => "VIEW" | .VIRTUAL => "VIRTUAL" | .WEEK => "WEEK" | .WEEKS => "WEEKS" | .WHEN => "WHEN"
  | .WHENEVER => "WHENEVER" | .WHERE => "WHERE" | .WINDOW => "WINDOW" | .WITH => "WITH" | .WITHIN => "WITHIN"
  | .WITHOUT => "WITHOUT" | .WITHOUT_ARRAY_WRAPPER => "WITHOUT_ARRAY_WRAPPER" | .XML => "XML"
  | .XMLNAMESPACES => "XMLNAMESPACES" | .XMLTABLE => "XMLTABLE" | .XOR => "XOR" | .YEAR => "YEAR"
  | .YEARS => "YEARS" | .ZONE => "ZONE"

def withInitial : Char → List Keyword
  | 'A' => [
    .ABORT, .ABSENT, .ACTION, .AFTER, .AGAINST, .AGGREGATE, .ALIAS, .ALL, .ALTER, .ALWAYS, .ANALYZE, .AND,
    .ANTI, .ANY, .APPLY, .ARRAY, .AS, .ASC, .ASOF, .AT, .AUTO, .AUTOINCREMENT, .AUTO_INCREMENT]
  | 'B' => [
    .BASE64, .BEFORE, .BERNOULLI, .BETWEEN, .BIGDECIMAL, .BIGINT, .BIGNUMERIC, .BINARY, .BIT, .BLOB, .BLOCK,
    .BOOL, .BOOLEAN, .BOTH, .BROWSE, .BUCKET, .BY, .BYTEA, .BYTES]
  | 'C' => [
    .CALL, .CASCADE, .CASE, .CAST, .CEIL, .CENTURY, .CHAR, .CHARACTER, .CHARACTERS, .CHECK, .CLOB, .CLUSTER,
    .COLLATE, .COLUMN, .COLUMNS, .COMMENT, .CONFLICT, .CONNECT, .CONNECT_BY_ROOT, .CONSTRAINT, .CONVERT,
    .COUNT, .CREATE, .CROSS, .CUBE, .CURRENT, .CURRENT_CATALOG, .CURRENT_DATE, .CURRENT_TIME,
    .CURRENT_TIMESTAMP, .CURRENT_USER]
  | 'D' => [
    .DATABASE, .DATE, .DATE32, .DATETIME, .DATETIME64, .DAY, .DAYOFWEEK, .DAYOFYEAR, .DAYS, .DEC, .DECADE,
    .DECIMAL, .DEFAULT, .DEFERRABLE, .DEFERRED, .DEFINE, .DELAYED, .DELETE, .DESC, .DESCRIBE, .DIMENSIONS,
    .DIRECTORY, .DISTINCT, .DISTRIBUTE, .DIV, .DO, .DOUBLE, .DOW, .DOY, .DROP, .DUPLICATE]
  | 'E' => [
    .ELEMENTS, .ELSE, .EMPTY, .END, .ENFORCED, .ENGINE, .ENUM, .ENUM16, .ENUM8, .EPHEMERAL, .EPOCH, .ERROR,
    .ESCAPE, .EXCEPT, .EXCLUDE, .EXISTS, .EXPANSION, .EXPLAIN, .EXPLICIT, .EXTEND, .EXTRACT]
  | 'F' => [
    .FACTS, .FAIL, .FALSE, .FETCH, .FILL, .FILTER, .FIRST, .FIXEDSTRING, .FLOAT, .FLOAT32, .FLOAT4, .FLOAT64,
    .FLOAT8, .FLOOR, .FN, .FOLLOWING, .FOR, .FORMAT, .FROM, .FULL, .FUNCTION]
  | 'G' => [
    .GENERATED, .GLOBAL, .GRANT, .GROUP, .GROUPING, .GROUPS]
  | 'H' => [
    .HAVING, .HIGH_PRIORITY, .HOUR, .HOURS, .HUGEINT]
  | 'I' => [
    .IDENTITY, .IF, .IGNORE, .ILIKE, .IMMEDIATE, .IN, .INCLUDE, .INCLUDE_NULL_VALUES, .INCREMENT, .INDEX,
    .INITIALLY, .INNER, .INSERT, .INT, .INT128, .INT16, .INT2, .INT256, .INT32, .INT4, .INT64, .INT8,
    .INTEGER, .INTERPOLATE, .INTERSECT, .INTERVAL, .INTO, .INVISIBLE, .IS, .ISODOW, .ISOWEEK, .ISOYEAR]
  | 'J' => [
    .JOIN, .JSON, .JSONB, .JSON_TABLE, .JULIAN]
  | 'K' => [
    .KEY]
  | 'L' => [
    .LAMBDA, .LANGUAGE, .LARGE, .LAST, .LATERAL, .LEADING, .LEFT, .LIKE, .LIMIT, .LOCAL, .LOCALTIME,
    .LOCALTIMESTAMP, .LOCKED, .LONGBLOB, .LONGTEXT, .LOWCARDINALITY, .LOW_PRIORITY]
  | 'M' => [
    .MAP, .MATCH, .MATCHED, .MATCHES, .MATCH_CONDITION, .MATCH_RECOGNIZE, .MATERIALIZED, .MAX, .MEASURES,
    .MEDIUMBLOB, .MEDIUMINT, .MEDIUMTEXT, .MEMBER, .MERGE, .METRICS, .MICROSECOND, .MICROSECONDS, .MILLENIUM,
    .MILLENNIUM, .MILLISECOND, .MILLISECONDS, .MIN, .MINUS, .MINUTE, .MINUTES, .MODE, .MONTH, .MONTHS]
  | 'N' => [
    .NAME, .NANOSECOND, .NANOSECONDS, .NATURAL, .NESTED, .NEXT, .NFC, .NFD, .NFKC, .NFKD, .NO, .NOCYCLE,
    .NOORDER, .NORMALIZED, .NOT, .NOTHING, .NOWAIT, .NULL, .NULLABLE, .NULLS, .NUMERIC, .NVARCHAR]
  | 'O' => [
    .OBJECT, .OCTETS, .OF, .OFFSET, .OMIT, .ON, .ONE, .ONLY, .OPEN, .OPENJSON, .OPERATOR, .OPTIONS, .OR,
    .ORDER, .ORDINALITY, .OUT, .OUTER, .OUTPUT, .OVER, .OVERFLOW, .OVERLAPS, .OVERLAY, .OVERWRITE]
  | 'P' => [
    .PARTIAL, .PARTITION, .PASSING, .PAST, .PATH, .PATTERN, .PER, .PERCENT, .PIVOT, .PLACING, .POSITION,
    .PRECEDING, .PRECISION, .PREWHERE, .PRIMARY, .PRIOR, .PURGE]
  | 'Q' => [
    .QUALIFY, .QUARTER, .QUERY]
  | 'R' => [
    .RANGE, .RAW, .REAL, .RECURSIVE, .REFERENCES, .REGCLASS, .REGEXP, .RENAME, .REPEATABLE, .REPLACE,
    .RESPECT, .RESTRICT, .RETURNING, .REVOKE, .RIGHT, .RLIKE, .ROLLBACK, .ROLLUP, .ROOT, .ROW, .ROWS]
  | 'S' => [
    .SAFE_CAST, .SAMPLE, .SCHEMA, .SECOND, .SECONDS, .SEED, .SELECT, .SEMANTIC_VIEW, .SEMI, .SEPARATOR,
    .SESSION_USER, .SET, .SETS, .SETTINGS, .SHARE, .SHOW, .SIGNED, .SIMILAR, .SIMPLE, .SKIP, .SMALLINT, .SOME,
    .SORT, .SOURCE, .SRID, .START, .STEP, .STORED, .STRAIGHT_JOIN, .STRING, .STRUCT, .SUBSTR,
    .SUBSTRING, .SYSTEM, .SYSTEM_TIME]
  | 'T' => [
    .TABLE, .TABLESAMPLE, .TARGET, .TEMP, .TEMPORARY, .TEXT, .THEN, .TIES, .TIME, .TIMESTAMP, .TIMESTAMPTZ,
    .TIMESTAMP_NTZ, .TIMETZ, .TIMEZONE, .TIMEZONE_ABBR, .TIMEZONE_HOUR, .TIMEZONE_MINUTE, .TIMEZONE_REGION,
    .TINYBLOB, .TINYINT, .TINYTEXT, .TO, .TOP, .TOTALS, .TRAILING, .TRIGGER, .TRIM, .TRUE, .TRUNCATE,
    .TRY_CAST, .TRY_CONVERT, .TSQUERY, .TSVECTOR, .TUPLE, .TYPE]
  | 'U' => [
    .UBIGINT, .UHUGEINT, .UINT128, .UINT16, .UINT256, .UINT32, .UINT64, .UINT8, .UNBOUNDED, .UNION, .UNIQUE,
    .UNKNOWN, .UNLOGGED, .UNMATCHED, .UNNEST, .UNPIVOT, .UNSIGNED, .UPDATE, .USE, .USER, .USING, .USMALLINT,
    .UTINYINT, .UUID]
  | 'V' => [
    .VALUE, .VALUES, .VARBINARY, .VARBIT, .VARCHAR, .VARYING, .VIEW, .VIRTUAL]
  | 'W' => [
    .WEEK, .WEEKS, .WHEN, .WHENEVER, .WHERE, .WINDOW, .WITH, .WITHIN, .WITHOUT, .WITHOUT_ARRAY_WRAPPER]
  | 'X' => [
    .XML, .XMLNAMESPACES, .XMLTABLE, .XOR]
  | 'Y' => [
    .YEAR, .YEARS]
  | 'Z' => [
    .ZONE]
  | _ => []

def all : List Keyword := "ABCDEFGHIJKLMNOPQRSTUVWXYZ".toList.flatMap withInitial

-- Keywords are read in any letter case.
def ofText? (s : String) : Option Keyword :=
  let s := Text.upper s
  (withInitial (s.toList.headD ' ')).find? (·.text = s)

end Keyword

end JoinTree.Sql
