/-!
Log records. A record has a severity and a text; a reader chooses how severe a record has to be.
-/
namespace Sim6809

inductive Level
  | error | warn | info | debug | trace
  deriving DecidableEq, Repr

namespace Level

def rank : Level → Nat
  | error => 0
  | warn => 1
  | info => 2
  | debug => 3
  | trace => 4

def name : Level → String
  | error => "ERROR"
  | warn => "WARN"
  | info => "INFO"
  | debug => "DEBUG"
  | trace => "TRACE"

end Level

structure Record where
  level : Level
  text : String
  deriving DecidableEq, Repr

abbrev Log := Array Record

/-- The texts of the records that are at least as severe as the given level, each after the name
of its own level. -/
def Log.atLeast (level : Level) (log : Log) : List String :=
  (log.toList.filter (·.level.rank ≤ level.rank)).map fun r => r.level.name ++ " " ++ r.text

end Sim6809
