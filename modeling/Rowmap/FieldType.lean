/-!
# Column types

The column types that a field can declare. Only one of them is text already when a comparison of
texts meets it; a column of any other type is cast.
-/

namespace Rowmap

inductive FieldType where
  | bigint | bigserial | bit | bitVarying | boolean | box | bytea | character | characterVarying
  | cidr | circle | date | doublePrecision | inet | integer | interval | json | jsonb | line
  | lseg | macaddr | macaddr8 | money | numeric | path | pgLsn | pgSnapshot | point | polygon
  | real | smallint | smallserial | serial | text | time | timeWithTimeZone | timestamp
  | timestampWithTimeZone | tsquery | tsvector | txidSnapshot | uuid | xml
  deriving DecidableEq, Repr

namespace FieldType

/-- Every column type, in order. -/
def members : List FieldType := [
  .bigint, .bigserial, .bit, .bitVarying, .boolean, .box, .bytea, .character,
  .characterVarying, .cidr, .circle, .date, .doublePrecision, .inet, .integer, .interval,
  .json, .jsonb, .line, .lseg, .macaddr, .macaddr8, .money, .numeric, .path, .pgLsn,
  .pgSnapshot, .point, .polygon, .real, .smallint, .smallserial, .serial, .text, .time,
  .timeWithTimeZone, .timestamp, .timestampWithTimeZone, .tsquery, .tsvector, .txidSnapshot,
  .uuid, .xml]

/-- The text of a column type in declarations. -/
def label : FieldType → String
  | .bigint => "bigint"
  | .bigserial => "bigserial"
  | .bit => "bit"
  | .bitVarying => "bit varying"
  | .boolean => "boolean"
  | .box => "box"
  | .bytea => "bytea"
  | .character => "character"
  | .characterVarying => "character varying"
  | .cidr => "cidr"
  | .circle => "circle"
  | .date => "date"
  | .doublePrecision => "double precision"
  | .inet => "inet"
  | .integer => "integer"
  | .interval => "interval"
  | .json => "json"
  | .jsonb => "jsonb"
  | .line => "line"
  | .lseg => "lseg"
  | .macaddr => "macaddr"
  | .macaddr8 => "macaddr8"
  | .money => "money"
  | .numeric => "numeric"
  | .path => "path"
  | .pgLsn => "pg_lsn"
  | .pgSnapshot => "pg_snapshot"
  | .point => "point"
  | .polygon => "polygon"
  | .real => "real"
  | .smallint => "smallint"
  | .smallserial => "smallserial"
  | .serial => "serial"
  | .text => "text"
  | .time => "time"
  | .timeWithTimeZone => "time with time zone"
  | .timestamp => "timestamp"
  | .timestampWithTimeZone => "timestamp with time zone"
  | .tsquery => "tsquery"
  | .tsvector => "tsvector"
  | .txidSnapshot => "txid_snapshot"
  | .uuid => "uuid"
  | .xml => "xml"

/-- The name of a column type in messages. -/
def memberName : FieldType → String
  | .bigint => "BIGINT"
  | .bigserial => "BIGSERIAL"
  | .bit => "BIT"
  | .bitVarying => "BIT_VARYING"
  | .boolean => "BOOLEAN"
  | .box => "BOX"
  | .bytea => "BYTEA"
  | .character => "CHARACTER"
  | .characterVarying => "CHARACTER_VARYING"
  | .cidr => "CIDR"
  | .circle => "CIRCLE"
  | .date => "DATE"
  | .doublePrecision => "DOUBLE_PRECISION"
  | .inet => "INET"
  | .integer => "INTEGER"
  | .interval => "INTERVAL"
  | .json => "JSON"
  | .jsonb => "JSONB"
  | .line => "LINE"
  | .lseg => "LSEG"
  | .macaddr => "MACADDR"
  | .macaddr8 => "MACADDR8"
  | .money => "MONEY"
  | .numeric => "NUMERIC"
  | .path => "PATH"
  | .pgLsn => "PG_LSN"
  | .pgSnapshot => "PG_SNAPSHOT"
  | .point => "POINT"
  | .polygon => "POLYGON"
  | .real => "REAL"
  | .smallint => "SMALLINT"
  | .smallserial => "SMALLSERIAL"
  | .serial => "SERIAL"
  | .text => "TEXT"
  | .time => "TIME"
  | .timeWithTimeZone => "TIME_WITH_TIME_ZONE"
  | .timestamp => "TIMESTAMP"
  | .timestampWithTimeZone => "TIMESTAMP_WITH_TIME_ZONE"
  | .tsquery => "TSQUERY"
  | .tsvector => "TSVECTOR"
  | .txidSnapshot => "TXID_SNAPSHOT"
  | .uuid => "UUID"
  | .xml => "XML"

/-- The column type with a given text. -/
def ofLabel? (s : String) : Option FieldType := members.find? (·.label == s)

/-- Whether a column of this type holds text. -/
def isText (t : FieldType) : Bool := t == .text

end FieldType

end Rowmap
