import Walkthrough.App.Basic
import Walkthrough.App.Draw
import Walkthrough.App.Panes
import Walkthrough.Chance
import Walkthrough.CommandLine.Arguments
import Walkthrough.CommandLine.Path
import Walkthrough.CommandLine.Run
import Walkthrough.Exercise.Basic
import Walkthrough.Exercise.Catalogue
import Walkthrough.Exercise.Maze
import Walkthrough.Exercise.Scenario
import Walkthrough.Exercise.TaskBook
import Walkthrough.Exercise.TestResult
import Walkthrough.Fault
import Walkthrough.Features
import Walkthrough.Frame
import Walkthrough.Host
import Walkthrough.JavaScript.Element
import Walkthrough.JavaScript.ExprParser
import Walkthrough.JavaScript.Lexer
import Walkthrough.JavaScript.Mistake
import Walkthrough.JavaScript.Outline
import Walkthrough.JavaScript.Parser
import Walkthrough.JavaScript.Program
import Walkthrough.JavaScript.Run
import Walkthrough.JavaScript.Token
import Walkthrough.JikiScript.Element
import Walkthrough.JikiScript.ExprParser
import Walkthrough.JikiScript.Lexer
import Walkthrough.JikiScript.Mistake
import Walkthrough.JikiScript.Outline
import Walkthrough.JikiScript.Parser
import Walkthrough.JikiScript.Program
import Walkthrough.JikiScript.Run
import Walkthrough.JikiScript.Token
import Walkthrough.Json
import Walkthrough.Language
import Walkthrough.Machine.Basic
import Walkthrough.Machine.Calls
import Walkthrough.Machine.Loops
import Walkthrough.Main
import Walkthrough.Number.Binary
import Walkthrough.Number.Layout
import Walkthrough.Number.Reading
import Walkthrough.Number.Shortest
import Walkthrough.Proofs.Accounts
import Walkthrough.Proofs.Arrivals
import Walkthrough.Proofs.Balance
import Walkthrough.Proofs.BlockEnds
import Walkthrough.Proofs.Causes
import Walkthrough.Proofs.Celebration
import Walkthrough.Proofs.Cells
import Walkthrough.Proofs.ClockRuns
import Walkthrough.Proofs.Clocks
import Walkthrough.Proofs.Coherence
import Walkthrough.Proofs.Comparison
import Walkthrough.Proofs.Completion
import Walkthrough.Proofs.Conservative
import Walkthrough.Proofs.Control
import Walkthrough.Proofs.Copying
import Walkthrough.Proofs.Declarations
import Walkthrough.Proofs.Discipline
import Walkthrough.Proofs.DistinctKeys
import Walkthrough.Proofs.Doubles
import Walkthrough.Proofs.Edits
import Walkthrough.Proofs.Elements
import Walkthrough.Proofs.Endings
import Walkthrough.Proofs.ExpressionStatements
import Walkthrough.Proofs.Folding
import Walkthrough.Proofs.FrameLines
import Walkthrough.Proofs.FrameRoutes
import Walkthrough.Proofs.Freezing
import Walkthrough.Proofs.Highlighting
import Walkthrough.Proofs.HostCalls
import Walkthrough.Proofs.Invariants
import Walkthrough.Proofs.Isolation
import Walkthrough.Proofs.JavaScriptAccounts
import Walkthrough.Proofs.JavaScriptDiscipline
import Walkthrough.Proofs.JavaScriptExpressions
import Walkthrough.Proofs.JavaScriptGrammar
import Walkthrough.Proofs.JavaScriptMirroring
import Walkthrough.Proofs.JavaScriptProgress
import Walkthrough.Proofs.JavaScriptTrees
import Walkthrough.Proofs.JikiScriptAccounts
import Walkthrough.Proofs.JikiScriptBlocks
import Walkthrough.Proofs.JikiScriptDiscipline
import Walkthrough.Proofs.JikiScriptExpressions
import Walkthrough.Proofs.JikiScriptGrammar
import Walkthrough.Proofs.JikiScriptMirroring
import Walkthrough.Proofs.JikiScriptProgress
import Walkthrough.Proofs.JikiScriptTrees
import Walkthrough.Proofs.Keys
import Walkthrough.Proofs.LexicalScope
import Walkthrough.Proofs.Listening
import Walkthrough.Proofs.LogLines
import Walkthrough.Proofs.MapLaws
import Walkthrough.Proofs.MazeWalks
import Walkthrough.Proofs.Mirroring
import Walkthrough.Proofs.Navigation
import Walkthrough.Proofs.NearestFrame
import Walkthrough.Proofs.Nesting
import Walkthrough.Proofs.Numerals
import Walkthrough.Proofs.Operations
import Walkthrough.Proofs.Permissive
import Walkthrough.Proofs.Placing
import Walkthrough.Proofs.Playback
import Walkthrough.Proofs.Positions
import Walkthrough.Proofs.Printing
import Walkthrough.Proofs.Progress
import Walkthrough.Proofs.Provenance
import Walkthrough.Proofs.Reachable
import Walkthrough.Proofs.Reading
import Walkthrough.Proofs.Renewal
import Walkthrough.Proofs.Requirements
import Walkthrough.Proofs.Rounding
import Walkthrough.Proofs.Rounds
import Walkthrough.Proofs.RunShape
import Walkthrough.Proofs.ScopeChain
import Walkthrough.Proofs.Seeking
import Walkthrough.Proofs.Spelling
import Walkthrough.Proofs.Stepping
import Walkthrough.Proofs.Steps
import Walkthrough.Proofs.Suggestions
import Walkthrough.Proofs.Tables
import Walkthrough.Proofs.Tallies
import Walkthrough.Proofs.TaskHistory
import Walkthrough.Proofs.TextLines
import Walkthrough.Proofs.Tiling
import Walkthrough.Proofs.TokenPlaces
import Walkthrough.Proofs.Viewpoints
import Walkthrough.Proofs.VirtualTime
import Walkthrough.Proofs.Visits
import Walkthrough.Proofs.WellFormed
import Walkthrough.Scopes
import Walkthrough.Screen.Highlight
import Walkthrough.Screen.Rows
import Walkthrough.Screen.Style
import Walkthrough.Screen.Wrap
import Walkthrough.Session.Basic
import Walkthrough.Session.Draft
import Walkthrough.Session.Operation
import Walkthrough.Session.Report
import Walkthrough.Session.Store
import Walkthrough.Session.View
import Walkthrough.Settings
import Walkthrough.Settings.LogFilter
import Walkthrough.Settings.Pattern
import Walkthrough.Step
import Walkthrough.Stream
import Walkthrough.Table
import Walkthrough.Text.Alphanumeric
import Walkthrough.Text.Blank
import Walkthrough.Text.Cluster
import Walkthrough.Text.Emoji
import Walkthrough.Text.Lines
import Walkthrough.Text.Mark
import Walkthrough.Text.Position
import Walkthrough.Text.Quoted
import Walkthrough.Text.Table
import Walkthrough.Text.Unseen
import Walkthrough.Text.Width
import Walkthrough.Timeline.Animation
import Walkthrough.Timeline.Clock
import Walkthrough.Timeline.Lines
import Walkthrough.Timeline.Navigation
import Walkthrough.Toml.Document
import Walkthrough.Toml.Node
import Walkthrough.Toml.Scalar
import Walkthrough.Toml.Text
import Walkthrough.Value.Heap
import Walkthrough.Value.Operators
import Walkthrough.Value.Snapshot
