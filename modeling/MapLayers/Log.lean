/-!
# Log records
-/

namespace MapLayers

inductive LogLevel where
  | debug
  | info
  | warning
  | error
  deriving DecidableEq, Repr

namespace LogLevel

def name : LogLevel → String
  | debug => "DEBUG"
  | info => "INFO"
  | warning => "WARNING"
  | error => "ERROR"

end LogLevel

/-- The parts of the program that write to the log. -/
inductive LogSource where
  | datasets
  | channels
  | compiler
  | commandLine
  deriving DecidableEq, Repr

namespace LogSource

def name : LogSource → String
  | datasets => "mapcompiler.datasets"
  | channels => "mapcompiler.channels"
  | compiler => "mapcompiler.parse_map"
  | commandLine => "mapcompiler.cli"

end LogSource

structure LogRecord where
  level : LogLevel
  source : LogSource
  message : String
  deriving DecidableEq, Repr

abbrev Log := List LogRecord

def LogRecord.line (r : LogRecord) : String :=
  r.level.name ++ " " ++ r.source.name ++ " " ++ r.message

end MapLayers
