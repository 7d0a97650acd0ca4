import UpsertSql.Dialect.OnConflict
import UpsertSql.Dialect.OnDuplicateKey
import UpsertSql.Dialect.Merge
import UpsertSql.Text.Blank

/-! The engines that can be chosen by name. -/
namespace UpsertSql

inductive Engine where
  | postgres | sqlite | mysql | sqlserver
  deriving DecidableEq

/-- A name that belongs to no engine, as it was given. -/
structure UnknownEngine where
  text : String
  deriving DecidableEq

def UnknownEngine.message (u : UnknownEngine) : String := s!"unknown SQL dialect `{u.text}`"

namespace Engine

def all : List Engine := [postgres, sqlite, mysql, sqlserver]

/-- The dialect that does the writing for an engine. -/
def renderer : Engine → Dialect
  | postgres => .postgres
  | sqlite => .sqlite
  | mysql => .mysql
  | sqlserver => .sqlserver

def name (e : Engine) : String := e.renderer.name

/-- An engine is a dialect itself: it hands each part of one on to its renderer. -/
def toDialect (e : Engine) : Dialect where
  quotes := e.renderer.quotes
  placeholder i := e.renderer.placeholder i
  sourceOpening := e.renderer.sourceOpening
  sourceClosing := e.renderer.sourceClosing
  targetOpening := e.renderer.targetOpening
  name := e.renderer.name
  statement u := e.renderer.statement u

instance : Coe Engine Dialect := ⟨toDialect⟩

/-- What an engine may be called, in lower case. -/
def aliases : Engine → List String
  | postgres => ["postgres", "postgresql", "pg"]
  | sqlite => ["sqlite", "sqlite3"]
  | mysql => ["mysql", "mariadb"]
  | sqlserver => ["sqlserver", "mssql", "tsql"]

/-- Blanks around a name and the case of its ASCII letters do not matter. -/
def parse (s : String) : Except UnknownEngine Engine :=
  let key := String.ofList ((Text.trim s.toList).map Char.toLower)
  match all.find? fun e => e.aliases.contains key with
  | some e => .ok e
  | none => .error ⟨s⟩

/-- The engine named by the scheme of a connection address, which ends before the first colon. -/
def ofUrl (url : String) : Except UnknownEngine Engine :=
  parse (String.ofList (url.toList.takeWhile (· ≠ ':')))

/-- The names a stored configuration may hold, spelled exactly. -/
def configNames : Engine → List String
  | postgres => ["postgres", "postgresql"]
  | sqlite => ["sqlite"]
  | mysql => ["mysql", "mariadb"]
  | sqlserver => ["sqlserver", "mssql"]

def ofConfig? (s : String) : Option Engine := all.find? fun e => e.configNames.contains s

end Engine
end UpsertSql
