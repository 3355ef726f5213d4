import ImportClosure.Log
import ImportClosure.Text.Case

/-!
# `ImportClosure.CommandLine.Threshold`: which log entries are shown

A threshold is the weight that an entry must have to be shown. It is given by name, in any
case. A name that means nothing stands for warnings, but two names are reserved and refused.
-/

set_option autoImplicit false

namespace ImportClosure.CommandLine

/-- A name that is no threshold and cannot be passed over. -/
inductive Reserved where
  | format
  | styles
  deriving DecidableEq, Repr

namespace Threshold

/-- The names of thresholds and their weights. -/
def weights : List (Text × Nat) :=
  [("NOTSET".toList, 0), ("DEBUG".toList, 10), ("INFO".toList, 20), ("WARN".toList, 30),
    ("WARNING".toList, 30), ("ERROR".toList, 40), ("CRITICAL".toList, 50), ("FATAL".toList, 50)]

/-- The reserved names. -/
def reserved : List (Text × Reserved) :=
  [("BASIC_FORMAT".toList, .format), ("_STYLES".toList, .styles)]

/-- The threshold with a name. -/
def ofName (name : Text) : Except Reserved Nat :=
  match reserved.lookup (Text.upper name) with
  | some name => .error name
  | none => .ok ((weights.lookup (Text.upper name)).getD Level.warning.weight)

end Threshold

/-- The line that shows an entry: the logger, the level and the message, the first two in
columns. -/
def entryLine (entry : LogEntry) : Text :=
  let logger := if entry.logger = [] then "root".toList else entry.logger
  Text.padRight 30 logger ++ "  ".toList ++ Text.padRight 7 entry.level.name ++
    "  ".toList ++ entry.message ++ ['\n']

/-- The lines of the entries that reach a threshold. -/
def logLines (threshold : Nat) (log : List LogEntry) : Text :=
  (log.filter fun entry => threshold ≤ entry.level.weight).flatMap entryLine

end ImportClosure.CommandLine
