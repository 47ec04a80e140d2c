import ContractKit.Text.CodePoint

/-!
# Log records

What the library reports about its work besides results, as data: each record has a level, the part
of the library it comes from and a message.
-/

namespace ContractKit

/-- How important a record is. -/
inductive LogLevel where
  | debug
  | info
deriving DecidableEq

/-- The name of a level. -/
def LogLevel.name : LogLevel → Text
  | .debug => "DEBUG"
  | .info => "INFO"

/-- The part of the library a record comes from. -/
inductive LogSource where
  | arguments
  | configuration
  | project
deriving DecidableEq

/-- The name under which a part of the library logs. -/
def LogSource.name : LogSource → Text
  | .arguments => "flowx.arguments"
  | .configuration => "flowx.config_json"
  | .project => "flowx.project"

/-- A log record. -/
structure LogRecord where
  /-- How important the record is. -/
  level : LogLevel
  /-- Where it comes from. -/
  source : LogSource
  /-- What it says. -/
  message : Text
deriving DecidableEq

/-- The line that shows a record. -/
def LogRecord.line (record : LogRecord) : Text :=
  .concat [record.level.name, " ", record.source.name, ": ", record.message, "\n"]

end ContractKit
