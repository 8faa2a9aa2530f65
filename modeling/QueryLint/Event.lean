/-
What the analysis says about its own work. Nothing here is part of a
result: events tell why a query was left alone or a file left out, and
the command line prints those at or above a chosen level.
-/
import QueryLint.Document
import QueryLint.Ty

namespace QueryLint

-- ================================================================== levels

/-- How much an event matters, or how much it has to. -/
structure Level where
  name : String
  rank : Nat
deriving DecidableEq, Repr

namespace Level

def debug : Level := ⟨"DEBUG", 10⟩

def warning : Level := ⟨"WARNING", 30⟩

/-- The levels that can be chosen; two of them go by two names, and the
last lets everything through. -/
def all : List Level :=
  [⟨"CRITICAL", 50⟩, ⟨"FATAL", 50⟩, ⟨"ERROR", 40⟩, ⟨"WARN", 30⟩, warning, ⟨"INFO", 20⟩,
   debug, ⟨"NOTSET", 0⟩]

/-- The level of a name. -/
def ofName? (s : String) : Option Level := all.find? (·.name == s)

end Level

-- ================================================================== events

/-- Something worth telling. -/
inductive Event where
  /-- The parser had to work around errors in a file. -/
  | syntaxErrors (path : String)
  /-- A call was bound to an operator of a family. -/
  | bound (receiver : Ty) (name family operator : String)
  /-- The receiver of a call is of no known type. -/
  | unresolvedReceiver (name : String) (place : Point)
  /-- A call of a chain has no known target. -/
  | unresolvedCall (name : String) (place : Point)
  /-- A call of a query runs in memory. -/
  | inMemory (name : String) (place : Point)
  /-- A file could not be read. -/
  | unreadable (path reason : String)

namespace Event

def level : Event → Level
  | unreadable .. => .warning
  | _ => .debug

/-- The part of the program that tells of an event. -/
def channel : Event → String
  | syntaxErrors .. => "ef_rocket.host"
  | bound .. => "ef_rocket.semantic.linq"
  | unresolvedReceiver .. => "ef_rocket.semantic.model"
  | unresolvedCall .. => "ef_rocket.analyzers.linq_query"
  | inMemory .. => "ef_rocket.analyzers.unsupported_linq"
  | unreadable .. => "ef_rocket.inputs.directory_scanning"

/-- The way a position is written in an event. -/
def point (p : Point) : String :=
  "Point(row=" ++ toString p.row ++ ", column=" ++ toString p.column ++ ")"

def message : Event → String
  | syntaxErrors path => "Syntax errors in " ++ path ++ "; analyzing what parsed"
  | bound receiver name family operator =>
    "Bound " ++ receiver.render ++ "." ++ name ++ " to " ++ family ++ "." ++ operator
  | unresolvedReceiver name p => "Unresolved receiver for " ++ name ++ " at " ++ point p
  | unresolvedCall name p =>
    "Cannot resolve " ++ name ++ " at " ++ point p ++ "; dropping it and later steps"
  | inMemory name p => name ++ " runs client side; stopping at " ++ point p
  | unreadable path reason => "Failed to index " ++ path ++ ": " ++ reason

/-- The line that tells of an event. -/
def line (e : Event) : String := e.level.name ++ " " ++ e.channel ++ ": " ++ e.message

/-- The lines that tell of the events at or above a level. -/
def lines (threshold : Level) (events : List Event) : List String :=
  (events.filter fun e => decide (threshold.rank ≤ e.level.rank)).map line

end Event

end QueryLint
