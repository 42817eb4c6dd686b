/-!
# Keywords

The words with a meaning of their own. They are recognised in any letter case; one of them,
`AUTOINCREMENT`, has the second spelling `AUTO_INCREMENT`. Reserved words never stand for a name,
the others do wherever a name is asked for.
-/

namespace SqlKit

/-- The keywords, each named by its text. -/
inductive Keyword where
  | SELECT | FROM | WHERE | ORDER | BY | GROUP | HAVING | LIMIT | OFFSET | DISTINCT | ALL | AS
  | WITH | RECURSIVE
  | JOIN | INNER | LEFT | RIGHT | FULL | OUTER | CROSS | NATURAL | ON | USING
  | UNION | INTERSECT | EXCEPT
  | INSERT | INTO | VALUES | UPDATE | SET | DELETE | REPLACE
  | CREATE | DROP | ALTER | TABLE | ADD | COLUMN | RENAME | TO | TEMP | TEMPORARY | IF | WITHOUT
  | ROWID | INDEX | VIEW | TRIGGER | DATABASE | SCHEMA
  | PRIMARY | KEY | HASH | FOREIGN | REFERENCES | UNIQUE | CHECK | DEFAULT | CONSTRAINT | CASCADE
  | RESTRICT | NO | ACTION | AUTOINCREMENT | IDENTITY | COLLATE
  | AND | OR | NOT | IN | BETWEEN | LIKE | REGEXP | GLOB | MATCH | ESCAPE | IS | NULL | TRUE | FALSE
  | EXISTS
  | ASC | DESC | NULLS | FIRST | LAST
  | CASE | WHEN | THEN | ELSE | END | CAST
  | ABORT | FAIL | IGNORE | ROLLBACK | CONFLICT
  | BEGIN | COMMIT | TRANSACTION
  | OVER | PARTITION | WINDOW | ROWS | RANGE | UNBOUNDED | PRECEDING | FOLLOWING | CURRENT | ROW
  deriving Repr, DecidableEq, Inhabited

namespace Keyword

/-- The canonical text of a keyword. -/
def text : Keyword → String
  | .SELECT => "SELECT"
  | .FROM => "FROM"
  | .WHERE => "WHERE"
  | .ORDER => "ORDER"
  | .BY => "BY"
  | .GROUP => "GROUP"
  | .HAVING => "HAVING"
  | .LIMIT => "LIMIT"
  | .OFFSET => "OFFSET"
  | .DISTINCT => "DISTINCT"
  | .ALL => "ALL"
  | .AS => "AS"
  | .WITH => "WITH"
  | .RECURSIVE => "RECURSIVE"
  | .JOIN => "JOIN"
  | .INNER => "INNER"
  | .LEFT => "LEFT"
  | .RIGHT => "RIGHT"
  | .FULL => "FULL"
  | .OUTER => "OUTER"
  | .CROSS => "CROSS"
  | .NATURAL => "NATURAL"
  | .ON => "ON"
  | .USING => "USING"
  | .UNION => "UNION"
  | .INTERSECT => "INTERSECT"
  | .EXCEPT => "EXCEPT"
  | .INSERT => "INSERT"
  | .INTO => "INTO"
  | .VALUES => "VALUES"
  | .UPDATE => "UPDATE"
  | .SET => "SET"
  | .DELETE => "DELETE"
  | .REPLACE => "REPLACE"
  | .CREATE => "CREATE"
  | .DROP => "DROP"
  | .ALTER => "ALTER"
  | .TABLE => "TABLE"
  | .ADD => "ADD"
  | .COLUMN => "COLUMN"
  | .RENAME => "RENAME"
  | .TO => "TO"
  | .TEMP => "TEMP"
  | .TEMPORARY => "TEMPORARY"
  | .IF => "IF"
  | .WITHOUT => "WITHOUT"
  | .ROWID => "ROWID"
  | .INDEX => "INDEX"
  | .VIEW => "VIEW"
  | .TRIGGER => "TRIGGER"
  | .DATABASE => "DATABASE"
  | .SCHEMA => "SCHEMA"
  | .PRIMARY => "PRIMARY"
  | .KEY => "KEY"
  | .HASH => "HASH"
  | .FOREIGN => "FOREIGN"
  | .REFERENCES => "REFERENCES"
  | .UNIQUE => "UNIQUE"
  | .CHECK => "CHECK"
  | .DEFAULT => "DEFAULT"
  | .CONSTRAINT => "CONSTRAINT"
  | .CASCADE => "CASCADE"
  | .RESTRICT => "RESTRICT"
  | .NO => "NO"
  | .ACTION => "ACTION"
  | .AUTOINCREMENT => "AUTOINCREMENT"
  | .IDENTITY => "IDENTITY"
  | .COLLATE => "COLLATE"
  | .AND => "AND"
  | .OR => "OR"
  | .NOT => "NOT"
  | .IN => "IN"
  | .BETWEEN => "BETWEEN"
  | .LIKE => "LIKE"
  | .REGEXP => "REGEXP"
  | .GLOB => "GLOB"
  | .MATCH => "MATCH"
  | .ESCAPE => "ESCAPE"
  | .IS => "IS"
  | .NULL => "NULL"
  | .TRUE => "TRUE"
  | .FALSE => "FALSE"
  | .EXISTS => "EXISTS"
  | .ASC => "ASC"
  | .DESC => "DESC"
  | .NULLS => "NULLS"
  | .FIRST => "FIRST"
  | .LAST => "LAST"
  | .CASE => "CASE"
  | .WHEN => "WHEN"
  | .THEN => "THEN"
  | .ELSE => "ELSE"
  | .END => "END"
  | .CAST => "CAST"
  | .ABORT => "ABORT"
  | .FAIL => "FAIL"
  | .IGNORE => "IGNORE"
  | .ROLLBACK => "ROLLBACK"
  | .CONFLICT => "CONFLICT"
  | .BEGIN => "BEGIN"
  | .COMMIT => "COMMIT"
  | .TRANSACTION => "TRANSACTION"
  | .OVER => "OVER"
  | .PARTITION => "PARTITION"
  | .WINDOW => "WINDOW"
  | .ROWS => "ROWS"
  | .RANGE => "RANGE"
  | .UNBOUNDED => "UNBOUNDED"
  | .PRECEDING => "PRECEDING"
  | .FOLLOWING => "FOLLOWING"
  | .CURRENT => "CURRENT"
  | .ROW => "ROW"

/-- All keywords. -/
def all : List Keyword := [
  .SELECT, .FROM, .WHERE, .ORDER, .BY, .GROUP, .HAVING, .LIMIT, .OFFSET, .DISTINCT, .ALL, .AS,
  .WITH, .RECURSIVE, .JOIN, .INNER, .LEFT, .RIGHT, .FULL, .OUTER, .CROSS, .NATURAL, .ON, .USING,
  .UNION, .INTERSECT, .EXCEPT, .INSERT, .INTO, .VALUES, .UPDATE, .SET, .DELETE, .REPLACE, .CREATE,
  .DROP, .ALTER, .TABLE, .ADD, .COLUMN, .RENAME, .TO, .TEMP, .TEMPORARY, .IF, .WITHOUT, .ROWID,
  .INDEX, .VIEW, .TRIGGER, .DATABASE, .SCHEMA, .PRIMARY, .KEY, .HASH, .FOREIGN, .REFERENCES,
  .UNIQUE, .CHECK, .DEFAULT, .CONSTRAINT, .CASCADE, .RESTRICT, .NO, .ACTION, .AUTOINCREMENT,
  .IDENTITY, .COLLATE, .AND, .OR, .NOT, .IN, .BETWEEN, .LIKE, .REGEXP, .GLOB, .MATCH, .ESCAPE, .IS,
  .NULL, .TRUE, .FALSE, .EXISTS, .ASC, .DESC, .NULLS, .FIRST, .LAST, .CASE, .WHEN, .THEN, .ELSE,
  .END, .CAST, .ABORT, .FAIL, .IGNORE, .ROLLBACK, .CONFLICT, .BEGIN, .COMMIT, .TRANSACTION, .OVER,
  .PARTITION, .WINDOW, .ROWS, .RANGE, .UNBOUNDED, .PRECEDING, .FOLLOWING, .CURRENT, .ROW]

theorem mem_all (k : Keyword) : k ∈ all := by
  cases k <;> decide

/-- The keyword that a word spells in any letter case, if it spells one. -/
def ofText? (word : String) : Option Keyword :=
  let upper := word.toUpper
  if upper = "AUTO_INCREMENT" then some .AUTOINCREMENT else all.find? (·.text == upper)

theorem text_of_ofText? {word : String} {k : Keyword} (h : ofText? word = some k) :
    k.text = word.toUpper ∨ (word.toUpper = "AUTO_INCREMENT" ∧ k = .AUTOINCREMENT) := by
  simp only [ofText?] at h
  split at h
  · next hUpper => exact Or.inr ⟨hUpper, (Option.some.inj h).symm⟩
  · exact Or.inl (by simpa using List.find?_some h)

/-- Words that never stand for a name. -/
def isReserved : Keyword → Bool
  | .SELECT | .FROM | .WHERE | .ORDER | .BY | .GROUP | .HAVING | .LIMIT | .OFFSET | .DISTINCT | .ALL
  | .AS | .WITH | .JOIN | .INNER | .LEFT | .RIGHT | .FULL | .OUTER | .CROSS | .NATURAL | .ON
  | .USING | .UNION | .INTERSECT | .EXCEPT | .INSERT | .INTO | .VALUES | .UPDATE | .SET | .DELETE
  | .CREATE | .DROP | .ALTER | .TABLE | .PRIMARY | .FOREIGN | .REFERENCES | .UNIQUE | .CHECK
  | .DEFAULT | .CONSTRAINT | .AND | .OR | .NOT | .IN | .BETWEEN | .LIKE | .REGEXP | .IS | .NULL
  | .TRUE | .FALSE | .EXISTS | .CASE | .WHEN | .THEN | .ELSE | .END | .CAST => true
  | _ => false

end Keyword

end SqlKit
