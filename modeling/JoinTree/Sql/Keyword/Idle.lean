import JoinTree.Text.Case

namespace JoinTree.Sql.Keyword

-- Words that are set aside although no reading of this grammar asks for them. A few places take free words only.
def idle : Char → List String
  | 'A' => [
    "ABS", "ABSOLUTE", "ACCEPTANYDATE", "ACCEPTINVCHARS", "ACCESS", "ACCOUNT", "ADD", "ADDQUOTES", "ADMIN",
    "AGGREGATION", "ALERT", "ALGORITHM", "ALIGNMENT", "ALLOCATE", "ALLOWOVERWRITE", "APPLICATION", "APPLYBUDGET",
    "ARCHIVE", "ARE", "ARRAY_MAX_CARDINALITY", "ASENSITIVE", "ASSERT", "ASYMMETRIC", "ATOMIC", "ATTACH", "AUDIT",
    "AUTHENTICATION", "AUTHORIZATION", "AUTHORIZATIONS", "AUTOEXTEND_SIZE", "AVG", "AVG_ROW_LENGTH", "AVRO"]
  | 'B' => [
    "BACKUP", "BACKWARD", "BASE_LOCATION", "BEGIN", "BEGIN_FRAME", "BEGIN_PARTITION", "BIND", "BINDING",
    "BLANKSASNULL", "BLOOM", "BLOOMFILTER", "BOOST", "BOX", "BRIN", "BTREE", "BUCKETS", "BYPASSRLS", "BZIP2"]
  | 'C' => [
    "CACHE", "CALLED", "CANONICAL", "CARDINALITY", "CASCADED", "CASES", "CATALOG", "CATALOG_SYNC",
    "CATALOG_SYNC_NAMESPACE_FLATTEN_DELIMITER", "CATALOG_SYNC_NAMESPACE_MODE", "CATCH", "CATEGORY", "CEILING",
    "CHAIN", "CHANGE", "CHANGE_TRACKING", "CHANNEL", "CHARACTERISTICS", "CHARACTER_LENGTH", "CHARSET", "CHAR_LENGTH",
    "CHECKSUM", "CIRCLE", "CLASS", "CLEANPATH", "CLEAR", "CLONE", "CLOSE", "CLUSTERED", "CLUSTERING", "COALESCE",
    "COLLATABLE", "COLLATION", "COLLECT", "COLLECTION", "COLUMNSTORE", "COMMIT", "COMMITTED", "COMMUTATOR",
    "COMPATIBLE", "COMPRESSION", "COMPUPDATE", "COMPUTE", "CONCURRENTLY", "CONDITION", "CONNECTION", "CONNECTOR",
    "CONTACT", "CONTAINS", "CONTINUE", "COPY", "COPY_OPTIONS", "CORR", "CORRESPONDING", "COVAR_POP", "COVAR_SAMP",
    "CREATEDB", "CREATEROLE", "CREDENTIALS", "CSV", "CUME_DIST", "CURRENT_DEFAULT_TRANSFORM_GROUP", "CURRENT_PATH",
    "CURRENT_ROLE", "CURRENT_ROW", "CURRENT_SCHEMA", "CURRENT_TRANSFORM_GROUP_FOR_TYPE", "CURSOR", "CYCLE"]
  | 'D' => [
    "DATA", "DATABASES", "DATA_RETENTION_TIME_IN_DAYS", "DATEFORMAT", "DCPROPERTIES", "DEALLOCATE", "DECLARE",
    "DEDUPLICATE", "DEFAULTS", "DEFAULT_DDL_COLLATION", "DEFAULT_MFA_METHOD", "DEFAULT_SECONDARY_ROLES", "DEFINED",
    "DEFINER", "DELAY_KEY_WRITE", "DELEGATED", "DELIMITED", "DELIMITER", "DELTA", "DENSE_RANK", "DENY", "DEREF",
    "DETACH", "DETAIL", "DETERMINISTIC", "DISABLE", "DISCARD", "DISCONNECT", "DISTINCTROW", "DOMAIN", "DOWNSTREAM",
    "DRY", "DUO", "DYNAMIC"]
  | 'E' => [
    "EACH", "ELEMENT", "EMPTYASNULL", "ENABLE", "ENABLE_SCHEMA_EVOLUTION", "ENCODING", "ENCRYPTED", "ENCRYPTION",
    "ENDPOINT", "END_FRAME", "END_PARTITION", "ENGINE_ATTRIBUTE", "ENROLL", "EQUALS", "ESCAPED", "ESTIMATE", "EVEN",
    "EVENT", "EVERY", "EVOLVE", "EXCEPTION", "EXCHANGE", "EXCLUDING", "EXCLUSIVE", "EXEC", "EXECUTE", "EXECUTION",
    "EXP", "EXPORT", "EXTENDED", "EXTENSION", "EXTERNAL", "EXTERNAL_VOLUME"]
  | 'F' => [
    "FAILOVER", "FAMILY", "FIELDS", "FILE", "FILES", "FILE_FORMAT", "FINAL", "FIRST_VALUE", "FIXEDWIDTH", "FLATTEN",
    "FLUSH", "FORCE", "FORCE_NOT_NULL", "FORCE_NULL", "FORCE_QUOTE", "FOREIGN", "FORMATTED", "FORWARD", "FRAME_ROW",
    "FREE", "FREEZE", "FSCK", "FULFILLMENT", "FULLTEXT", "FUNCTIONS", "FUSION", "FUTURE"]
  | 'G' => [
    "GB", "GENERAL", "GENERATE", "GEOGRAPHY", "GET", "GIN", "GIST", "GRANTED", "GRANTS", "GRAPHVIZ", "GZIP"]
  | 'H' => [
    "HANDLER", "HASH", "HASHES", "HEADER", "HEAP", "HISTORY", "HIVEVAR", "HOLD", "HOSTS"]
  | 'I' => [
    "IAM_ROLE", "ICEBERG", "ID", "IDENTIFIED", "IDENTITY_INSERT", "IGNOREHEADER", "IMMUTABLE", "IMPORT", "IMPORTED",
    "INCLUDING", "INCREMENTAL", "INDICATOR", "INHERIT", "INHERITS", "INITIALIZE", "INOUT", "INPATH", "INPLACE",
    "INPUT", "INPUTFORMAT", "INSENSITIVE", "INSERT_METHOD", "INSTALL", "INSTANT", "INSTEAD", "INTEGRATION",
    "INTERNALLENGTH", "INTERSECTION", "INVOKER", "IO", "ISOLATION", "ITEMS"]
  | 'J' => [
    "JAR", "JSONFILE"]
  | 'K' => [
    "KEYS", "KEY_BLOCK_SIZE", "KILL"]
  | 'L' => [
    "LAG", "LAST_VALUE", "LEAD", "LEAKPROOF", "LEAST", "LEFTARG", "LEVEL", "LIKE_REGEX", "LINE", "LINES", "LIST",
    "LISTEN", "LISTING", "LN", "LOAD", "LOCATION", "LOCK", "LOG", "LOGIN", "LOGS", "LONG", "LOWER", "LS", "LSEG"]
  | 'M' => [
    "MACRO", "MAIN", "MANAGE", "MANAGED", "MANAGEDLOCATION", "MANIFEST", "MASKING", "MATERIALIZE", "MAXFILESIZE",
    "MAXVALUE", "MAX_DATA_EXTENSION_TIME_IN_DAYS", "MAX_ROWS", "MB", "MERGES", "MESSAGE", "METADATA", "METHOD",
    "METRIC", "MINVALUE", "MIN_ROWS", "MOD", "MODIFIES", "MODIFY", "MODULE", "MODULUS", "MONITOR", "MSCK",
    "MULTIRANGE_TYPE_NAME", "MULTISET", "MUTATION"]
  | 'N' => [
    "NAMES", "NATIONAL", "NCHAR", "NCLOB", "NEGATOR", "NEST", "NETWORK", "NEW", "NOBYPASSRLS", "NOCOMPRESS",
    "NOCREATEDB", "NOCREATEROLE", "NOINHERIT", "NOLOGIN", "NONE", "NOREPLICATION", "NORMALIZE", "NOSCAN",
    "NOSUPERUSER", "NOTIFY", "NOTNULL", "NO_WRITE_TO_BINLOG", "NTH_VALUE", "NTILE", "NULLIF"]
  | 'O' => [
    "OBJECTS", "OCCURRENCES_REGEX", "OCTET_LENGTH", "OFF", "OFFLINE", "OFFSETS", "OLD", "ON_CREATE", "ON_SCHEDULE",
    "OPERATE", "OPTIMIZATION", "OPTIMIZE", "OPTIMIZED", "OPTIMIZER_COSTS", "OPTION", "ORC", "ORGANIZATION", "OTHER",
    "OTP", "OUTPUTFORMAT", "OVERRIDE", "OWNED", "OWNER", "OWNERSHIP"]
  | 'P' => [
    "PACKAGE", "PACKAGES", "PACK_KEYS", "PARALLEL", "PARAMETER", "PARQUET", "PART", "PARTITIONED", "PARTITIONS",
    "PASSEDBYVALUE", "PASSKEY", "PASSWORD", "PCTFREE", "PERCENTILE_CONT", "PERCENTILE_DISC", "PERCENT_RANK", "PERIOD",
    "PERMISSIVE", "PERSISTENT", "PLAIN", "PLAN", "PLANS", "POINT", "POLICY", "POLYGON", "POOL", "PORTION",
    "POSITION_REGEX", "POWER", "PRAGMA", "PRECEDES", "PREFERRED", "PREPARE", "PRESERVE", "PRESET", "PRINT",
    "PRIVILEGES", "PROCEDURE", "PROFILE", "PROGRAM", "PROJECTION", "PUBLIC", "PURCHASE"]
  | 'Q' => [
    "QUERIES", "QUOTE"]
  | 'R' => [
    "RAISE", "RAISERROR", "RANK", "RCFILE", "READ", "READS", "READ_ONLY", "RECEIVE", "RECLUSTER", "REF",
    "REFERENCING", "REFRESH", "REFRESH_MODE", "REGION", "REGR_AVGX", "REGR_AVGY", "REGR_COUNT", "REGR_INTERCEPT",
    "REGR_R2", "REGR_SLOPE", "REGR_SXX", "REGR_SXY", "REGR_SYY", "REINDEX", "RELATIVE", "RELAY", "RELEASE",
    "RELEASES", "REMAINDER", "REMOTE", "REMOVE", "REMOVEQUOTES", "REORG", "REPAIR", "REPLACE_INVALID_CHARACTERS",
    "REPLICA", "REPLICATE", "REPLICATION", "REQUIRE", "RESET", "RESOLVE", "RESOURCE", "RESTART", "RESTRICTED",
    "RESTRICTIONS", "RESTRICTIVE", "RESULT", "RESULTSET", "RESUME", "RETAIN", "RETURN", "RETURNS", "RIGHTARG", "RM",
    "ROLE", "ROLES", "ROWGROUPSIZE", "ROWID", "ROW_FORMAT", "ROW_NUMBER", "RULE", "RUN"]
  | 'S' => [
    "SAFE", "SAVEPOINT", "SCHEMAS", "SCOPE", "SCROLL", "SEARCH", "SECONDARY", "SECONDARY_ENGINE_ATTRIBUTE", "SECRET",
    "SECURE", "SECURITY", "SEND", "SENSITIVE", "SEQUENCE", "SEQUENCEFILE", "SEQUENCES", "SERDE", "SERDEPROPERTIES",
    "SERIALIZABLE", "SERVER", "SERVICE", "SESSION", "SETERROR", "SHARED", "SHARING", "SIZE", "SLOW", "SNAPSHOT",
    "SORTED", "SPATIAL", "SPECIFIC", "SPECIFICTYPE", "SPGIST", "SQL", "SQLEXCEPTION", "SQLSTATE", "SQLWARNING",
    "SQL_BIG_RESULT", "SQL_BUFFER_RESULT", "SQL_CALC_FOUND_ROWS", "SQL_NO_CACHE", "SQL_SMALL_RESULT", "SQRT",
    "STABLE", "STAGE", "STARTS", "STATEMENT", "STATIC", "STATISTICS", "STATS_AUTO_RECALC", "STATS_PERSISTENT",
    "STATS_SAMPLE_PAGES", "STATUPDATE", "STATUS", "STDDEV_POP", "STDDEV_SAMP", "STDIN", "STDOUT", "STORAGE",
    "STORAGE_INTEGRATION", "STORAGE_SERIALIZATION_POLICY", "STREAM", "STRICT", "SUBMULTISET", "SUBSCRIPT",
    "SUBSTRING_REGEX", "SUBTYPE", "SUBTYPE_DIFF", "SUBTYPE_OPCLASS", "SUCCEEDS", "SUM", "SUPER", "SUPERUSER",
    "SUPPORT", "SUSPEND", "SWAP", "SYMMETRIC", "SYNC", "SYNONYM", "SYSTEM_USER"]
  | 'T' => [
    "TABLES", "TABLESPACE", "TAG", "TARGET_LAG", "TASK", "TBLPROPERTIES", "TEMPTABLE", "TERMINATED", "TERSE",
    "TEXTFILE", "TIMEFORMAT", "TOTP", "TRACE", "TRAN", "TRANSACTION", "TRANSIENT", "TRANSLATE", "TRANSLATE_REGEX",
    "TRANSLATION", "TREAT", "TREE", "TRIM_ARRAY", "TRUNCATECOLUMNS", "TRY", "TYPMOD_IN", "TYPMOD_OUT"]
  | 'U' => [
    "UESCAPE", "UNCACHE", "UNCOMMITTED", "UNDEFINED", "UNFREEZE", "UNLISTEN", "UNLOAD", "UNLOCK", "UNSAFE", "UNSET",
    "UNTIL", "UPPER", "URL", "USAGE", "USER_RESOURCES"]
  | 'V' => [
    "VACUUM", "VALID", "VALIDATE", "VALIDATION_MODE", "VALUE_OF", "VARCHAR2", "VARIABLE", "VARIABLES", "VAR_POP",
    "VAR_SAMP", "VERBOSE", "VERSION", "VERSIONING", "VERSIONS", "VIEWS", "VOLATILE", "VOLUME"]
  | 'W' => [
    "WAREHOUSE", "WAREHOUSES", "WHILE", "WIDTH_BUCKET", "WORK", "WORKLOAD_IDENTITY", "WRAPPER", "WRITE"]
  | 'Y' => [
    "YES"]
  | 'Z' => [
    "ZORDER", "ZSTD"]
  | _ => []

def isIdle (s : String) : Bool :=
  let s := Text.upper s
  (idle (s.toList.headD ' ')).contains s

end JoinTree.Sql.Keyword
