/-
The command line: analyzes the source files below a directory, or the
sample when none is named, and prints a report. The parser is handed in
as a function, and so is everything else from outside; what comes out is
what is printed on the two output channels.
-/
import QueryLint.Files.Scan
import QueryLint.Report
import QueryLint.Sample
import QueryLint.Stack
import QueryLint.Text.UpperCase

namespace QueryLint

-- ================================================================= loading

/-- Sources taken into a compilation. -/
structure Loaded where
  compilation : Compilation
  /-- What there was to tell of them. -/
  events : List Event
  /-- How many were taken in. -/
  added : Nat

namespace Loaded

/-- A compilation before anything is taken into it. -/
def start (comp : Compilation) : Loaded := ⟨comp, [], 0⟩

/-- Takes in one source. One that could not be read is told and left
out; there is no result if the parser has none. -/
def add (parse : String → Option Parse) (loaded : Loaded) :
    String × Except FileError String → Option Loaded
  | (path, .error e) =>
    some { loaded with events := loaded.events ++ [.unreadable path (e.message path)] }
  | (path, .ok text) =>
    (parse text).map fun p =>
      { compilation := loaded.compilation.add ⟨path, .ofText text, p.tree⟩
        events := loaded.events ++ if p.hasErrors then [.syntaxErrors path] else []
        added := loaded.added + 1 }

/-- Takes sources into a compilation, in order. -/
def ofSources (parse : String → Option Parse) (comp : Compilation)
    (sources : List (String × Except FileError String)) : Option Loaded :=
  sources.foldlM (add parse) (start comp)

/-- Takes the source files below a directory into a compilation. -/
def ofDirectory (parse : String → Option Parse) (fs : FileSystem) (comp : Compilation)
    (path : String) : Option Loaded :=
  ofSources parse comp (fs.scan path)

end Loaded

-- ================================================================= running

/-- The ways in which a run fails. -/
inductive RunError where
  /-- The chosen level does not exist; its name is in upper case. -/
  | unknownLevel (name : String)
  /-- The parser has no result for a source. -/
  | noParse
  | analysis (e : AnalysisError)
  | template (e : TemplateError)

/-- The wording of an error. -/
def RunError.message : RunError → String
  | unknownLevel name => "Unknown level: " ++ Quoted.render name
  | noParse => "no parse for this source"
  | analysis e => e.message
  | template e => e.message

/-- What a run prints. -/
structure Output where
  stdout : String
  stderr : String

namespace CommandLine

/-- The level that is chosen by name, in any case; without a name it is
that of warnings. -/
def level (name : Option String) : Except RunError Level :=
  let name := upperCase (name.getD "WARNING")
  match Level.ofName? name with
  | some level => .ok level
  | none => .error (.unknownLevel name)

/-- The sources of a run: those below the directory that the first
argument names, or the sample. -/
def load (parse : String → Option Parse) (fs : FileSystem) : List String → Option Loaded
  | [] => Loaded.ofSources parse .empty [(Sample.path, .ok Sample.text)]
  | path :: _ => Loaded.ofDirectory parse fs .empty path

/-- A run over some arguments, with the name of a level if one is
chosen. -/
def run (parse : String → Option Parse) (fs : FileSystem) (levelName : Option String)
    (args : List String) : Except RunError Output := do
  let threshold ← level levelName
  let some loaded := load parse fs args | throw .noParse
  let found ← (Host.default.analyzeOn Host.room loaded.compilation).mapError .analysis
  let report ← (Report.ofDiagnostics found).mapError .template
  let events := loaded.events ++ Host.default.events loaded.compilation
  return ⟨report.print, String.join ((Event.lines threshold events).map (· ++ "\n"))⟩

end CommandLine

end QueryLint
