import Walkthrough.Features
import Walkthrough.Toml.Document

/-! The settings of the program, as a TOML document with a table a section. A key that is missing
keeps its default and an unknown key is ignored, but a value of the wrong kind spoils the whole. -/

namespace Walkthrough

structure Playback where
  autoPlay : Bool := true
  /-- Playback runs so many times as fast as the time that passes. -/
  speed : Float := 1.0

structure Logging where
  filter : String := "warn"
  file : Option String := none

structure Settings where
  features : Features := {}
  playback : Playback := {}
  logging : Logging := {}

/-- The members of a section by their names. A section may also be written as the list of its first
members in order; a date has no members. -/
def Toml.Node.members? (names : List String) : Toml.Node → Option Toml.Entries
  | .table _ entries => some entries
  | .list items => some (names.zip items)
  | .tables earlier last => some (names.zip (earlier ++ [.table .header last]))
  | .moment => some []
  | _ => none

def Toml.Node.bool? : Toml.Node → Option Bool
  | .bool b => some b
  | _ => none

/-- A count, which has no sign. -/
def Toml.Node.count? : Toml.Node → Option UInt64
  | .integer n => if 0 ≤ n then some (UInt64.ofNat n.toNat) else none
  | _ => none

def Toml.Node.number? : Toml.Node → Option Float
  | .float x => some x
  | .integer n => some (Number.ofInt n)
  | _ => none

def Toml.Node.text? : Toml.Node → Option String
  | .text s => some s
  | _ => none

/-- A member, or its default where it is missing. -/
def Toml.Entries.member {α : Type} (entries : Toml.Entries) (name : String)
    (read : Toml.Node → Option α) (default : α) : Option α :=
  match entries.lookup name with
  | some node => read node
  | none => some default

inductive Settings.Error where
  | malformed
  | badSpeed (speed : Float)

namespace Settings

open Toml

def features? (node : Node) : Option Features := do
  let base : Features := {}
  let entries ← node.members? ["allow_shadowing", "allow_type_coercion", "allow_truthiness",
    "enforce_strict_equality", "time_per_frame", "max_total_loop_iterations",
    "max_total_execution_time"]
  return {
    shadowing := ← entries.member "allow_shadowing" Node.bool? base.shadowing
    coercion := ← entries.member "allow_type_coercion" Node.bool? base.coercion
    truthiness := ← entries.member "allow_truthiness" Node.bool? base.truthiness
    strictEquality := ← entries.member "enforce_strict_equality" Node.bool? base.strictEquality
    timePerFrame := ← entries.member "time_per_frame" Node.count? base.timePerFrame
    maxIterations := ← entries.member "max_total_loop_iterations" Node.count? base.maxIterations
    maxTime := ← entries.member "max_total_execution_time" Node.count? base.maxTime }

def playback? (node : Node) : Option Playback := do
  let base : Playback := {}
  let entries ← node.members? ["auto_play", "speed"]
  return {
    autoPlay := ← entries.member "auto_play" Node.bool? base.autoPlay
    speed := ← entries.member "speed" Node.number? base.speed }

def logging? (node : Node) : Option Logging := do
  let base : Logging := {}
  let entries ← node.members? ["filter", "file"]
  return {
    filter := ← entries.member "filter" Node.text? base.filter
    file := ← entries.member "file" (fun n => n.text?.map some) base.file }

def ofEntries? (entries : Entries) : Option Settings := do
  return {
    features := ← entries.member "language_features" features? {}
    playback := ← entries.member "playback" playback? {}
    logging := ← entries.member "logging" logging? {} }

/-- Reads settings; the speed of playback has to be a positive finite number. -/
def ofText (text : String) : Except Settings.Error Settings :=
  match (Toml.read? text).bind ofEntries? with
  | none => .error .malformed
  | some settings =>
    let speed := settings.playback.speed
    if speed <= 0.0 || !speed.isFinite then .error (.badSpeed speed) else .ok settings

def toJson (s : Settings) : Json :=
  Json.object
    [("language_features", s.features.toJson),
     ("playback", Json.object
      [("auto_play", .bool s.playback.autoPlay),
       ("speed", .str (Number.signedText s.playback.speed))]),
     ("logging", Json.object
      [("filter", .str s.logging.filter), ("file", Json.optional .str s.logging.file)])]

def Error.message (path : String) : Settings.Error → String
  | .malformed => "invalid config " ++ path ++ ": malformed settings"
  | .badSpeed speed =>
    "invalid config " ++ path ++ ": playback speed must be positive, got "
      ++ Number.settingText speed

end Settings
end Walkthrough
