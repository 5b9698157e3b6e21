import Walkthrough.CommandLine.Path
import Walkthrough.Language

/-! The arguments of the command line. They are read from left to right; the first one that is
wrong, or that asks for help or the version, ends the reading. -/

namespace Walkthrough.CommandLine

structure Arguments where
  file : String
  language : Option Language := none
  exercise : Option String := none
  settings : String
  /-- Print the results instead of opening the terminal application. -/
  isPlain : Bool := false
  isJson : Bool := false
deriving DecidableEq, Repr

/-- Why there is nothing to run. -/
inductive Interruption where
  | help
  | version
  | misuse
deriving DecidableEq, Repr

/-- The options that take a value. -/
inductive Choice where
  | language
  | exercise
  | settings
deriving DecidableEq, Repr

/-- The options that take none. -/
inductive Switch where
  | plain
  | json
deriving DecidableEq, Repr

inductive Argument where
  | file (name : String)
  | choice (choice : Choice) (value : Option String)
  | switch (switch : Switch)
  | interruption (i : Interruption)
  /-- Everything after it names files. -/
  | endOfOptions

/-- The options by their long names; none of the switches takes a value. -/
def Argument.ofLong (name : String) (value : Option String) : Argument :=
  match name, value with
  | "language", value => .choice .language value
  | "exercise", value => .choice .exercise value
  | "config", value => .choice .settings value
  | "no-tui", none => .switch .plain
  | "json", none => .switch .json
  | "help", none => .interruption .help
  | "version", none => .interruption .version
  | _, _ => .interruption .misuse

/-- The value that stands right behind a letter, with or without an equals sign. -/
def attachedValue : List Char → Option String
  | [] => none
  | '=' :: rest => some (String.ofList rest)
  | cs => some (String.ofList cs)

/-- The options by their letters. -/
def Argument.ofLetter (letter : Char) (behind : List Char) : Argument :=
  match letter with
  | 'l' => .choice .language (attachedValue behind)
  | 'e' => .choice .exercise (attachedValue behind)
  | 'c' => .choice .settings (attachedValue behind)
  | 'h' => .interruption .help
  | 'V' => .interruption .version
  | _ => .interruption .misuse

def Argument.ofText (arg : String) : Argument :=
  match arg.toList with
  | ['-', '-'] => .endOfOptions
  | '-' :: '-' :: cs =>
    let name := String.ofList (cs.takeWhile (· != '='))
    match cs.dropWhile (· != '=') with
    | _ :: value => .ofLong name (some (String.ofList value))
    | [] => .ofLong name none
  | '-' :: letter :: behind => .ofLetter letter behind
  | _ => .file arg

/-- An argument that is no value of the option before it. -/
def startsOption (arg : String) : Bool :=
  match arg.toList with
  | '-' :: _ :: _ => true
  | _ => false

structure Given where
  file : Option String := none
  language : Option Language := none
  exercise : Option String := none
  settings : Option String := none
  isPlain : Bool := false
  isJson : Bool := false

namespace Given

/-- Files have names, and there is one. -/
def addFile (g : Given) (name : String) : Except Interruption Given :=
  if name.isEmpty || g.file.isSome then .error .misuse else .ok { g with file := some name }

/-- An option is given once. -/
def choose (g : Given) (choice : Choice) (value : String) : Except Interruption Given :=
  match choice with
  | .language =>
    match Language.ofName? value with
    | some language => if g.language.isSome then .error .misuse else .ok { g with language }
    | none => .error .misuse
  | .exercise => if g.exercise.isSome then .error .misuse else .ok { g with exercise := value }
  | .settings =>
    if value.isEmpty || g.settings.isSome then .error .misuse else .ok { g with settings := value }

def turnOn (g : Given) : Switch → Except Interruption Given
  | .plain => if g.isPlain then .error .misuse else .ok { g with isPlain := true }
  | .json => if g.isJson then .error .misuse else .ok { g with isJson := true }

def read (g : Given) : List String → Except Interruption Given
  | [] => .ok g
  | arg :: rest =>
    match Argument.ofText arg with
    | .file name => do (← g.addFile name).read rest
    | .choice choice (some value) => do (← g.choose choice value).read rest
    | .choice choice none =>
      match rest with
      | value :: rest =>
        if startsOption value then .error .misuse else do (← g.choose choice value).read rest
      | [] => .error .misuse
    | .switch switch => do (← g.turnOn switch).read rest
    | .interruption i => .error i
    | .endOfOptions => rest.foldlM addFile g

end Given

/-- Where the settings are if nothing else is said. -/
def Arguments.defaultSettings : String := "steptrace.toml"

/-- There is a file to run, and JSON is only for plain output. -/
def Arguments.parse (args : List String) : Except Interruption Arguments := do
  let g ← Given.read {} args
  match g.file with
  | none => .error .misuse
  | some file =>
    if g.isJson && !g.isPlain then .error .misuse
    return {
      file
      language := g.language
      exercise := g.exercise
      settings := g.settings.getD defaultSettings
      isPlain := g.isPlain
      isJson := g.isJson }

/-- The language asked for, or else the one that the name of the file tells. -/
def Arguments.programLanguage (a : Arguments) : Language :=
  a.language.getD (.ofExtension (extension a.file))

end Walkthrough.CommandLine
