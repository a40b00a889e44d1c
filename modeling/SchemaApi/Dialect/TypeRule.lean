import SchemaApi.Dialect
import SchemaApi.Text.Find
/-!
What a declared type means. Each dialect has a table from type names to rules; a rule gives the
meaning and format of the type and says how the arguments of a declaration are read.
-/

namespace SchemaApi

open Text

/-- the meaning of a column's type, the same in every dialect -/
inductive Meaning where
  | integer | float | decimal | text | boolean | date | time | timestamp | interval | uuid | json
  | binary | enum | other
  deriving DecidableEq, Repr

namespace Meaning

def all : List Meaning :=
  [integer, float, decimal, text, boolean, date, time, timestamp, interval, uuid, json, binary,
    enum, other]

def name : Meaning → String
  | integer => "integer" | float => "float" | decimal => "decimal" | text => "text"
  | boolean => "boolean" | date => "date" | time => "time" | timestamp => "timestamp"
  | interval => "interval" | uuid => "uuid" | json => "json" | binary => "binary"
  | enum => "enum" | other => "other"

def ofName? (s : String) : Option Meaning := all.find? (·.name == s)

/-- numbers may be compared with each other whatever their type -/
def isNumeric (m : Meaning) : Bool := m == integer || m == float || m == decimal

/-- points and spans of time -/
def isTemporal (m : Meaning) : Bool :=
  m == date || m == time || m == timestamp || m == interval

theorem ofName?_name (m : Meaning) : ofName? m.name = some m := by
  cases m <;> decide

end Meaning

/-- how the arguments of a declared type are read -/
inductive TypeArguments where
  | ignored
  /-- the first argument is a length -/
  | length
  /-- the arguments are precision and scale -/
  | precision
  /-- the arguments are the allowed values -/
  | values
  deriving DecidableEq, Repr

/-- how one type name maps to a meaning -/
structure TypeRule where
  meaning : Meaning
  format : Option String := none
  arguments : TypeArguments := .ignored
  /-- the database numbers the rows itself -/
  autoIncrement : Bool := false
  /-- whether a time zone is kept, if the name alone says so -/
  timezone : Option Bool := none
  isArray : Bool := false
  deriving DecidableEq, Repr

namespace TypeRule

def formatted (meaning : Meaning) (format : String) : TypeRule :=
  { meaning := meaning, format := some format }

def int16 : TypeRule := formatted .integer "int16"
def int32 : TypeRule := formatted .integer "int32"
def int64 : TypeRule := formatted .integer "int64"
def real : TypeRule := formatted .float "float"
def double : TypeRule := formatted .float "double"
def decimal : TypeRule := { meaning := .decimal, arguments := .precision }
def text : TypeRule := { meaning := .text }
def sizedText : TypeRule := { text with arguments := .length }
def boolean : TypeRule := { meaning := .boolean }
def date : TypeRule := formatted .date "date"
def time : TypeRule := formatted .time "time"
def zonedTime : TypeRule := { time with timezone := some true }
def timestamp : TypeRule := formatted .timestamp "date-time"
def zonedTimestamp : TypeRule := { timestamp with timezone := some true }
def uuid : TypeRule := formatted .uuid "uuid"
def json : TypeRule := { meaning := .json }
def binary : TypeRule := formatted .binary "byte"
def sizedBinary : TypeRule := { binary with arguments := .length }
/-- one of the values listed in the declaration -/
def listed : TypeRule := { meaning := .enum, arguments := .values }
/-- any of the values listed in the declaration -/
def listedSet : TypeRule := { listed with isArray := true }
def other : TypeRule := { meaning := .other }
/-- whole numbers with which the database numbers the rows -/
def serial16 : TypeRule := { int16 with autoIncrement := true }
def serial32 : TypeRule := { int32 with autoIncrement := true }
def serial64 : TypeRule := { int64 with autoIncrement := true }

end TypeRule

/-- types of every dialect -/
def commonTypes : List (String × TypeRule) := [
  ("INT", .int32), ("INTEGER", .int32), ("SMALLINT", .int16), ("BIGINT", .int64), ("REAL", .real),
  ("FLOAT", .double), ("DOUBLE", .double), ("DOUBLE PRECISION", .double), ("DECIMAL", .decimal),
  ("DEC", .decimal), ("NUMERIC", .decimal), ("BOOLEAN", .boolean), ("BOOL", .boolean),
  ("CHAR", .sizedText), ("CHARACTER", .sizedText), ("VARCHAR", .sizedText),
  ("CHARACTER VARYING", .sizedText), ("CHAR VARYING", .sizedText), ("NCHAR", .sizedText),
  ("NVARCHAR", .sizedText), ("TEXT", .text), ("CLOB", .text), ("DATE", .date), ("TIME", .time),
  ("TIMESTAMP", .timestamp), ("DATETIME", .timestamp),
  ("INTERVAL", .formatted .interval "duration"), ("UUID", .uuid), ("JSON", .json),
  ("BLOB", .binary), ("BINARY", .sizedBinary), ("VARBINARY", .sizedBinary)]

/-- types of PostgreSQL alone -/
def postgresTypes : List (String × TypeRule) := [
  ("INT2", .int16), ("INT4", .int32), ("INT8", .int64), ("SERIAL", .serial32),
  ("SERIAL4", .serial32), ("BIGSERIAL", .serial64), ("SERIAL8", .serial64),
  ("SMALLSERIAL", .serial16), ("SERIAL2", .serial16), ("FLOAT4", .real), ("FLOAT8", .double),
  ("MONEY", .decimal), ("BPCHAR", .sizedText), ("CITEXT", .text), ("NAME", .text),
  ("TIMESTAMPTZ", .zonedTimestamp), ("TIMETZ", .zonedTime), ("JSONB", .json), ("BYTEA", .binary),
  ("INET", .formatted .text "ip"), ("CIDR", .formatted .text "cidr"),
  ("MACADDR", .formatted .text "mac"), ("XML", .formatted .text "xml"), ("BIT", .sizedText),
  ("BIT VARYING", .sizedText), ("VARBIT", .sizedText), ("TSVECTOR", .other), ("TSQUERY", .other),
  ("POINT", .other), ("LINE", .other), ("POLYGON", .other), ("BOX", .other), ("CIRCLE", .other)]

/-- types of MySQL alone -/
def mysqlTypes : List (String × TypeRule) := [
  ("TINYINT", .int16), ("MEDIUMINT", .int32), ("BIT", .boolean), ("YEAR", .int16),
  ("TINYTEXT", .text), ("MEDIUMTEXT", .text), ("LONGTEXT", .text), ("TINYBLOB", .binary),
  ("MEDIUMBLOB", .binary), ("LONGBLOB", .binary), ("ENUM", .listed), ("SET", .listedSet),
  ("GEOMETRY", .other), ("POINT", .other), ("LINESTRING", .other), ("POLYGON", .other)]

/-- types of SQLite alone -/
def sqliteTypes : List (String × TypeRule) := [
  ("INTEGER", .int64), ("TINYINT", .int16), ("MEDIUMINT", .int32), ("INT2", .int16),
  ("INT8", .int64)]

/-- types of SQL Server alone -/
def mssqlTypes : List (String × TypeRule) := [
  ("TINYINT", .int16), ("BIT", .boolean), ("MONEY", .decimal), ("SMALLMONEY", .decimal),
  ("NTEXT", .text), ("DATETIME2", .timestamp), ("SMALLDATETIME", .timestamp),
  ("DATETIMEOFFSET", .zonedTimestamp), ("UNIQUEIDENTIFIER", .uuid), ("IMAGE", .binary),
  ("ROWVERSION", .binary), ("XML", .formatted .text "xml")]

/-- types of one dialect alone; they go before the common ones -/
def Dialect.ownTypes : Dialect → List (String × TypeRule)
  | .postgresql => postgresTypes
  | .mysql => mysqlTypes
  | .sqlite => sqliteTypes
  | .mssql => mssqlTypes

namespace Dialect

/-- the rule for a type name, in upper or lower case -/
def typeRule? (d : Dialect) (name : String) : Option TypeRule :=
  match d.ownTypes.lookup (upper name) with
  | some rule => some rule
  | none => commonTypes.lookup (upper name)

/-- the rule that a type name outside the tables has by its spelling -/
def affinityRule (name : String) : TypeRule :=
  let name := upper name
  if occursIn "INT" name then .int64
  else if ["CHAR", "CLOB", "TEXT"].any (occursIn · name) then .text
  else if name = "" || occursIn "BLOB" name then .binary
  else if ["REAL", "FLOA", "DOUB"].any (occursIn · name) then .double
  else .decimal

end Dialect

end SchemaApi
