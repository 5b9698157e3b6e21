import Walkthrough.Exercise.Basic
import Walkthrough.Timeline.Clock

/-! Running scenarios, and what is left of a run: its frames, its output, what was expected, and a
clock to play it back with. -/

namespace Walkthrough

structure TestResult (τ : Type) where
  slug : String
  name : String
  passed : Bool
  expects : List Expect := []
  frames : List Frame := []
  console : List LogLine := []
  /-- The run has broken off, and there is nothing to show of it. -/
  overflowed : Bool := false
  /-- What the called function gave back. -/
  value : Option Snapshot := none
  /-- What could be seen of the world at the end. -/
  state : Option Json := none
  clock : Clock τ

namespace TestResult

variable {τ W : Type}

def statusName (r : TestResult τ) : String :=
  if r.passed then "pass" else "fail"

def toJson (r : TestResult τ) : Json :=
  Json.object
    [("slug", .str r.slug), ("name", .str r.name), ("status", .str r.statusName),
     ("expects", .arr (r.expects.map Expect.toJson)),
     ("value", Json.optional Snapshot.toJson r.value), ("state", r.state.getD .null),
     ("logLines", .arr (r.console.map LogLine.toJson)),
     ("frames", .arr (r.frames.map Frame.toJson))]

/-- The result with what it takes to play it back. -/
def report (r : TestResult Float) : Json :=
  match r.toJson with
  | .obj entries =>
    Json.object (entries ++
      [("animations", .arr (r.clock.animations.map Animation.toJson)), ("clock", r.clock.toJson)])
  | other => other

variable [ClockTime τ]

/-- A source that does not parse is told about first. -/
def syntaxExpects (outcome : Outcome W) : List Expect :=
  outcome.error.toList.map fun e => .fail e.text

/-- The result of a run: it passes if the source parsed, no frame failed and every expectation came
true. -/
def ofOutcome (slug name : String) (outcome : Outcome W) (expects : List Expect)
    (animations : List (Animation Micros)) : TestResult τ :=
  { slug
    name
    passed := outcome.error.isNone && !hasFailure outcome.frames && expects.all (·.pass)
    expects
    frames := outcome.frames
    console := outcome.console
    overflowed := outcome.overflowed
    value := outcome.value
    clock := .ofRun (animations.map (·.mapTimes ClockTime.ofMicros)) outcome.frames }

def complaints (checks : List CodeCheck) (code : String) (language : Language)
    (outcome : Outcome W) : List Expect :=
  checks.filterMap fun check => check.complaint? { code, language, calls := outcome.calls }

/-- Runs a program in a world laid out by the scenario. -/
def ofVisual (scenario : Scenario) (visual : VisualScenario) (world : Maze) (code : String)
    (language : Language) (features : Features) : TestResult τ :=
  let setup : Setup Maze :=
    { features, functions := Maze.functions, seed := visual.seed, world := visual.prepare world }
  let outcome := match visual.call with
    | some call => language.evaluate code setup call.name call.args
    | none => language.interpret code setup
  let expects := syntaxExpects outcome ++ visual.expectations outcome.world
    ++ complaints visual.checks code language outcome
  { ofOutcome scenario.slug scenario.name outcome expects outcome.world.animations with
    state := some outcome.world.state }

def expectValue (io : CallScenario) (value : Option Snapshot) : Expect :=
  { pass := value.any (·.matchesJson io.expected)
    errorHtml := "Expected <code>" ++ io.call.name ++ "</code> to return <code>"
      ++ io.expected.compact ++ "</code>."
    actual := value.map Snapshot.toJson
    expected := some io.expected }

/-- Calls a function of a program and compares what it gives back. -/
def ofCall (scenario : Scenario) (io : CallScenario) (functions : List (HostFunction Unit))
    (code : String) (language : Language) (features : Features) : TestResult τ :=
  let setup : Setup Unit := { features, functions, world := () }
  let outcome := language.evaluate code setup io.call.name io.call.args
  let comparison := if outcome.error.isSome then [] else [expectValue io outcome.value]
  let expects := syntaxExpects outcome ++ comparison
    ++ complaints io.checks code language outcome
  ofOutcome scenario.slug scenario.name outcome expects []

/-- A visual scenario of an exercise that has no world fails; the program is run all the same. -/
def ofMissingWorld (exercise : Exercise) (scenario : Scenario) (code : String)
    (language : Language) : TestResult τ :=
  let outcome := language.interpret code { world := () }
  let expects := [Expect.fail
    ("The " ++ exercise.slug ++ " exercise has no world to run this scenario in.")]
  ofOutcome scenario.slug scenario.name outcome expects []

def ofScenario (exercise : Exercise) (scenario : Scenario) (code : String) (language : Language)
    (features : Features) : TestResult τ :=
  match scenario.kind, exercise.world with
  | .visual visual, some world => ofVisual scenario visual world code language features
  | .visual _, none => ofMissingWorld exercise scenario code language
  | .io io, _ => ofCall scenario io exercise.functions code language features

/-- Runs a program by itself, as the only test. -/
def ofProgram (code : String) (language : Language) (features : Features) : TestResult τ :=
  let outcome := language.interpret code { features, world := () }
  ofOutcome "program" "Program" outcome (syntaxExpects outcome) []

/-- Runs every scenario of an exercise, in order. -/
def ofExercise (exercise : Exercise) (code : String) (language : Language) (features : Features) :
    List (TestResult τ) :=
  exercise.scenarios.map fun scenario => ofScenario exercise scenario code language features

end TestResult

abbrev TestResults (τ : Type) := List (TestResult τ)

namespace TestResults

variable {τ : Type}

/-- There is a test, and every test passed. -/
def allPassed (rs : TestResults τ) : Bool :=
  !rs.isEmpty && rs.all (·.passed)

def anyOverflowed (rs : TestResults τ) : Bool :=
  rs.any (·.overflowed)

/-- The first result with a slug. -/
def get? (rs : TestResults τ) (slug : String) : Option (TestResult τ) :=
  rs.find? fun r => r.slug == slug

def hasPassed (rs : TestResults τ) (slug : String) : Bool :=
  (rs.get? slug).any (·.passed)

/-- Changes the first result with a slug. -/
def modify (slug : String) (f : TestResult τ → TestResult τ) : TestResults τ → TestResults τ
  | [] => []
  | r :: rest => if r.slug == slug then f r :: rest else r :: modify slug f rest

def modifyClock (rs : TestResults τ) (slug : String) (f : Clock τ → Clock τ) : TestResults τ :=
  modify slug (fun r => { r with clock := f r.clock }) rs

end TestResults
end Walkthrough
