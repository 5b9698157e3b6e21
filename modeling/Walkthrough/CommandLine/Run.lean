import Walkthrough.CommandLine.Arguments
import Walkthrough.Exercise.Catalogue
import Walkthrough.Session.Operation
import Walkthrough.Settings
import Walkthrough.Settings.LogFilter
import Walkthrough.Text.Quoted

/-! What the command line does: read the settings, then the program, run it, and print the results.
Files are reached through a `Disk`, so that a run can be followed without one. -/

namespace Walkthrough.CommandLine

inductive FileContents where
  | missing
  | unreadable (reason : String)
  | text (s : String)

/-- The files that a run can reach. Creating a file fails where there is no place for it. -/
structure Disk (m : Type → Type) where
  read : String → m FileContents
  create : String → m Bool

/-- How the program ends: its code, what it has printed, and what it complains of. Records of the
log may stand before the complaint. -/
structure Exit where
  code : Nat := 0
  output : String := ""
  complaint : Option String := none
  hasLogged : Bool := false
deriving DecidableEq, Repr

namespace Exit

def misuse : Exit := { code := 2 }

def failed (message : String) : Exit :=
  { code := 1, complaint := some ("Error: " ++ message) }

def aborted : Exit := { code := 101 }

end Exit

def unlines (lines : List String) : String :=
  lines.foldl (fun text line => text ++ line ++ "\n") ""

def help : String :=
  unlines
    ["Step through a program's execution frame by frame",
     "",
     "Usage: steptrace [OPTIONS] <FILE>",
     "",
     "Arguments:",
     "  <FILE>  Program to run",
     "",
     "Options:",
     "  -l, --language <LANGUAGE>  Source language (guessed from the file extension when omitted) "
      ++ "[possible values: jikiscript, javascript]",
     "  -e, --exercise <EXERCISE>  Run the program against an exercise's scenarios",
     "  -c, --config <CONFIG>      Settings file [default: steptrace.toml]",
     "      --no-tui               Print the results instead of opening the terminal UI",
     "      --json                 With --no-tui, print the results as JSON",
     "  -h, --help                 Print help",
     "  -V, --version              Print version"]

def version : String := "steptrace 0.1.0\n"

/-- A frame on a line of its own, the description running on; a failure is told again below. -/
def frameText (frame : Frame) : List String :=
  let time := Text.alignRight 9 (Number.fixedText 3 frame.time.toMillis)
  let line := Text.alignLeft 3 (Number.digits frame.line)
  ["  " ++ time ++ "ms  line " ++ line ++ " " ++ frame.description]
    ++ frame.fault?.toList.map fun fault =>
      "               " ++ fault.kind ++ ": " ++ fault.message

def resultText {τ : Type} (r : TestResult τ) : List String :=
  [r.name ++ " [" ++ (if r.passed then "PASS" else "FAIL") ++ "]"]
    ++ r.frames.flatMap frameText
    ++ r.console.map (fun line => "  > " ++ line.output)
    ++ (r.expects.filter fun e => !e.pass).map fun e => "  ✗ " ++ e.errorHtml

def resultsText {τ : Type} (isJson : Bool) (results : TestResults τ) : String :=
  if isJson then (Json.arr (results.map TestResult.toJson)).pretty ++ "\n"
  else unlines (results.flatMap resultText)

/-- Runs a program and prints what came of it; the exit code tells whether all tests passed. -/
def report (a : Arguments) (settings : Settings) (source : String) : Exit :=
  let session : Session Float :=
    ((Session.ofCode a.programLanguage source).withFeatures settings.features).withPlayback
      settings.playback.autoPlay settings.playback.speed
  let finish (session : Session Float) : Exit :=
    if a.isPlain then
      let results := session.runTests
      if results.anyOverflowed then .aborted
      else { code := if results.allPassed then 0 else 1, output := resultsText a.isJson results }
    else .failed "terminal UI failed"
  match a.exercise with
  | none => finish session
  | some slug =>
    match Exercise.find? slug with
    | some exercise => finish (session.withExercise exercise)
    | none => .failed ("unknown exercise " ++ Text.inQuotes slug ++ " (available: "
        ++ ", ".intercalate Exercise.slugs ++ ")")

def loaded : LogFilter.Event :=
  { level := .info
    target := "steptrace".toList
    fields := ["message".toList, "file".toList, "language".toList] }

/-- The log goes to where complaints go, unless there is a file for it or the screen is in use. -/
def logsLoading (a : Arguments) (filter : LogFilter) (logging : Logging) : Bool :=
  a.isPlain && logging.file.isNone && filter.logs loaded

section

variable {m : Type → Type} [Monad m]

/-- The settings in a file; a missing file stands for the defaults. -/
def readSettings (disk : Disk m) (path : String) : m (Except String Settings) := do
  match ← disk.read path with
  | .missing => return .ok {}
  | .unreadable reason => return .error ("could not read " ++ path ++ ": " ++ reason)
  | .text s =>
    match Settings.ofText s with
    | .ok settings => return .ok settings
    | .error error => return .error (error.message path)

/-- Reads the filter and makes the file for the log, if there is one. -/
def openLog (disk : Disk m) (logging : Logging) : m (Except Exit LogFilter) := do
  match LogFilter.read logging.filter with
  | .error .malformed =>
    return .error (.failed ("invalid log filter " ++ Text.inQuotes logging.filter))
  | .error .split => return .error .aborted
  | .ok filter =>
    match logging.file with
    | none => return .ok filter
    | some path =>
      if ← disk.create path then return .ok filter
      else return .error (.failed ("could not create log file " ++ path))

/-- Does what the arguments ask for. Wrong settings are told before a missing program, and that
before an unknown exercise. -/
def perform (disk : Disk m) (a : Arguments) : m Exit := do
  match ← readSettings disk a.settings with
  | .error message => return .failed message
  | .ok settings =>
    match ← openLog disk settings.logging with
    | .error exit => return exit
    | .ok filter =>
      match ← disk.read a.file with
      | .text source =>
        return { report a settings source with hasLogged := logsLoading a filter settings.logging }
      | _ => return .failed ("could not read " ++ a.file)

def run (disk : Disk m) (args : List String) : m Exit :=
  match Arguments.parse args with
  | .ok a => perform disk a
  | .error .help => return { output := help }
  | .error .version => return { output := version }
  | .error .misuse => return .misuse

end

/-- Files that all lie in one place. A file can be made in any folder, under a name that is not that
of a folder; if there is one already, it is emptied. -/
def Disk.ofFiles : Disk (StateM Files) where
  read path := do
    match Place.ofParts (← get) (path.splitOn "/") with
    | .file contents => return .text contents
    | .missing => return .missing
    | .blocked reason => return .unreadable reason
    | .folder _ | .elsewhere => return .unreadable "Is a directory (os error 21)"
  create path := do
    let files ← get
    let parts := path.splitOn "/"
    match Place.ofParts files parts, Place.ofParts files parts.dropLast with
    | .file _, .folder folder | .missing, .folder folder =>
      let made := folder ++ [parts.getLastD ""]
      set ((made, "") :: files.filter fun f => f.1 ≠ made)
      return true
    | .missing, .elsewhere => return true
    | _, _ => return false

end Walkthrough.CommandLine
