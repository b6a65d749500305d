/-!
# Log entries

* `Level`      how much an entry matters;
* `LogEntry`   one line of the log.

Operations that report something return their entries, oldest first; who keeps them is up to the
caller.
-/

namespace ChipEight

inductive Level where
  | debug | info | warning | error | critical
  deriving DecidableEq, Repr

def Level.name : Level → String
  | debug => "DEBUG"
  | info => "INFO"
  | warning => "WARNING"
  | error => "ERROR"
  | critical => "CRITICAL"

structure LogEntry where
  level : Level
  text : String
  deriving DecidableEq, Repr

namespace LogEntry

def debug (text : String) : LogEntry := ⟨.debug, text⟩
def info (text : String) : LogEntry := ⟨.info, text⟩
def warning (text : String) : LogEntry := ⟨.warning, text⟩
def error (text : String) : LogEntry := ⟨.error, text⟩

end LogEntry

end ChipEight
