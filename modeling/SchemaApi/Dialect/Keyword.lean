import SchemaApi.Dialect
import SchemaApi.Text.Case
/-!
Keywords and phrases. A phrase is a sequence of words that a dialect reads as one keyword, such as
`NOT NULL` or `TIMESTAMP WITH TIME ZONE`.
-/

namespace SchemaApi

open Text

/-- keywords of every dialect -/
def commonKeywords : List String := [
  "ACTION", "ADD", "ALL", "ALTER", "ALWAYS", "AND", "AS", "ASC", "BETWEEN", "BY", "CASCADE", "CASE",
  "CAST", "CHECK", "COLLATE", "COLUMN", "COMMENT", "CONSTRAINT", "CREATE", "CURRENT_DATE",
  "CURRENT_TIME", "CURRENT_TIMESTAMP", "DEFAULT", "DEFERRABLE", "DEFERRED", "DELETE", "DESC",
  "DISTINCT", "DROP", "ELSE", "END", "EXISTS", "FALSE", "FOREIGN", "FROM", "GENERATED", "IF",
  "IMMEDIATE", "IN", "INDEX", "INITIALLY", "IS", "KEY", "LIKE", "MATCH", "NO", "NOT", "NULL", "ON",
  "OR", "PRIMARY", "REFERENCES", "RENAME", "REPLACE", "RESTRICT", "SELECT", "SET", "TABLE", "TEMP",
  "TEMPORARY", "THEN", "TO", "TRUE", "TYPE", "UNIQUE", "UPDATE", "USING", "VIEW", "WHEN", "WHERE",
  "WITH", "WITHOUT"]

/-- keywords of one dialect alone -/
def Dialect.ownKeywords : Dialect → List String
  | .postgresql =>
    ["CONCURRENTLY", "ENUM", "IDENTITY", "ILIKE", "INCLUDE", "INHERITS", "MATERIALIZED", "ONLY",
      "PARTITION", "STORED", "UNLOGGED"]
  | .mysql =>
    ["AUTO_INCREMENT", "CHANGE", "CHARSET", "ENGINE", "FULLTEXT", "MODIFY", "SIGNED", "SPATIAL",
      "STORED", "UNSIGNED", "VIRTUAL", "ZEROFILL"]
  | .sqlite => ["AUTOINCREMENT", "CONFLICT", "STORED", "STRICT", "VIRTUAL"]
  | .mssql => ["CLUSTERED", "IDENTITY", "NONCLUSTERED", "PERSISTED"]

/-- phrases of every dialect -/
def commonPhrases : List (List String) := [
  ["NOT", "NULL"], ["PRIMARY", "KEY"], ["FOREIGN", "KEY"], ["IF", "NOT", "EXISTS"],
  ["IF", "EXISTS"], ["ON", "DELETE"], ["ON", "UPDATE"], ["SET", "NULL"], ["SET", "DEFAULT"],
  ["SET", "NOT", "NULL"], ["SET", "DATA", "TYPE"], ["DROP", "NOT", "NULL"], ["DROP", "DEFAULT"],
  ["NO", "ACTION"], ["OR", "REPLACE"], ["COMMENT", "ON"], ["DOUBLE", "PRECISION"],
  ["CHARACTER", "VARYING"], ["CHAR", "VARYING"], ["WITH", "TIME", "ZONE"],
  ["WITHOUT", "TIME", "ZONE"], ["TIMESTAMP", "WITH", "TIME", "ZONE"],
  ["TIMESTAMP", "WITHOUT", "TIME", "ZONE"], ["TIME", "WITH", "TIME", "ZONE"],
  ["TIME", "WITHOUT", "TIME", "ZONE"], ["GENERATED", "ALWAYS", "AS", "IDENTITY"],
  ["GENERATED", "BY", "DEFAULT", "AS", "IDENTITY"], ["GENERATED", "ALWAYS", "AS"],
  ["NULLS", "FIRST"], ["NULLS", "LAST"]]

/-- phrases of one dialect alone -/
def Dialect.ownPhrases : Dialect → List (List String)
  | .postgresql => [["BIT", "VARYING"], ["UNIQUE", "INDEX"]]
  | .mysql => [["UNIQUE", "KEY"], ["UNIQUE", "INDEX"], ["CHARACTER", "SET"]]
  | .sqlite => [["WITHOUT", "ROWID"], ["UNIQUE", "INDEX"]]
  | .mssql => [["UNIQUE", "INDEX"]]

namespace Dialect

/-- the word is a keyword, in upper or lower case -/
def isKeyword (d : Dialect) (word : String) : Bool :=
  commonKeywords.contains (upper word) || d.ownKeywords.contains (upper word)

/-- all phrases of a dialect, in table order -/
def phrases (d : Dialect) : List (List String) := commonPhrases ++ d.ownPhrases

/-- the phrases that begin with an upper-case word, longest first, equally long ones in table
order -/
def phrasesFrom (d : Dialect) (first : String) : List (List String) :=
  (d.phrases.filter fun phrase => phrase.head? == some first).mergeSort
    fun a b => b.length ≤ a.length

/-- the phrases that a word as written may begin -/
def phrasesStarting (d : Dialect) (word : String) : List (List String) :=
  d.phrasesFrom (upper word)

end Dialect

end SchemaApi
