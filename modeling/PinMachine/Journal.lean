/-!
Journal entries. The parts of the machine that have something to tell an
operator put entries in a journal; the journal is an output of its own, beside
the results, and no result depends on it.
-/

namespace PinMachine

/-- How important an entry is, from least to most. -/
inductive Level where
  | debug
  | info
  | warn
  | error
  deriving DecidableEq, Repr

namespace Level

def rank : Level → Nat
  | .debug => 1
  | .info => 2
  | .warn => 3
  | .error => 4

def name : Level → String
  | .debug => "DEBUG"
  | .info => "INFO"
  | .warn => "WARN"
  | .error => "ERROR"

end Level

inductive Component where
  | lexer
  | validator
  | interpreter
  deriving DecidableEq, Repr

structure JournalEntry where
  level : Level
  component : Component
  message : String
  deriving DecidableEq, Repr

end PinMachine
