import StepShell.Action
import StepShell.Action.Json
import StepShell.Command
import StepShell.Command.Download
import StepShell.Command.Echo
import StepShell.Command.Files
import StepShell.Command.Settings
import StepShell.Command.Standard
import StepShell.Compilation
import StepShell.Compilation.Redirects
import StepShell.Console
import StepShell.Console.Files
import StepShell.Console.Line
import StepShell.Expansion
import StepShell.Failure
import StepShell.History
import StepShell.History.Json
import StepShell.Host
import StepShell.Json.Basic
import StepShell.Json.Number
import StepShell.Json.Parser
import StepShell.Json.Printer
import StepShell.Limits
import StepShell.Machine
import StepShell.Machine.Execute
import StepShell.Machine.Run
import StepShell.Main
import StepShell.Node
import StepShell.Node.Dump
import StepShell.Node.Equality
import StepShell.Node.Json
import StepShell.Node.Shell
import StepShell.Operator
import StepShell.Operator.Prompted
import StepShell.Operator.Scripted
import StepShell.Position
import StepShell.Proofs.Action.Reading
import StepShell.Proofs.Command.Blindness
import StepShell.Proofs.Command.Draining
import StepShell.Proofs.Command.Escapes
import StepShell.Proofs.Command.Frame
import StepShell.Proofs.Command.Modes
import StepShell.Proofs.Command.Shift
import StepShell.Proofs.Compilation.Balance
import StepShell.Proofs.Compilation.Freshness
import StepShell.Proofs.Compilation.Parts
import StepShell.Proofs.Compilation.Provision
import StepShell.Proofs.Compilation.Redirection
import StepShell.Proofs.Compilation.Relocation
import StepShell.Proofs.Compilation.Residue
import StepShell.Proofs.Compilation.Resolution
import StepShell.Proofs.Compilation.Supply
import StepShell.Proofs.Console.Imports
import StepShell.Proofs.Console.Recording
import StepShell.Proofs.Console.Recreation
import StepShell.Proofs.Effect
import StepShell.Proofs.Expansion.Closure
import StepShell.Proofs.Expansion.Quoting
import StepShell.Proofs.Expansion.Reading
import StepShell.Proofs.Expansion.Slicing
import StepShell.Proofs.Json.Nesting
import StepShell.Proofs.Json.Records
import StepShell.Proofs.Machine.Arguments
import StepShell.Proofs.Machine.Bounds
import StepShell.Proofs.Machine.Branching
import StepShell.Proofs.Machine.Confinement
import StepShell.Proofs.Machine.Copying
import StepShell.Proofs.Machine.Discipline
import StepShell.Proofs.Machine.Dispatch
import StepShell.Proofs.Machine.Driven
import StepShell.Proofs.Machine.Judging
import StepShell.Proofs.Machine.Leftover
import StepShell.Proofs.Machine.Lockstep
import StepShell.Proofs.Machine.Loop
import StepShell.Proofs.Machine.Moments
import StepShell.Proofs.Machine.Moves
import StepShell.Proofs.Machine.Obedience
import StepShell.Proofs.Machine.Outcome
import StepShell.Proofs.Machine.Outside
import StepShell.Proofs.Machine.Pace
import StepShell.Proofs.Machine.Parameters
import StepShell.Proofs.Machine.Paths
import StepShell.Proofs.Machine.Pausing
import StepShell.Proofs.Machine.Pipeline
import StepShell.Proofs.Machine.Redirection
import StepShell.Proofs.Machine.Refusal
import StepShell.Proofs.Machine.Restoring
import StepShell.Proofs.Machine.Results
import StepShell.Proofs.Machine.Rounds
import StepShell.Proofs.Machine.Runs
import StepShell.Proofs.Machine.Sequence
import StepShell.Proofs.Machine.Shadow
import StepShell.Proofs.Machine.Symmetry
import StepShell.Proofs.Machine.Targets
import StepShell.Proofs.Machine.Truths
import StepShell.Proofs.Machine.Twins
import StepShell.Proofs.Machine.Unwinding
import StepShell.Proofs.Machine.Withholding
import StepShell.Proofs.Node.Outline
import StepShell.Proofs.Node.Respelling
import StepShell.Proofs.Node.Shifting
import StepShell.Proofs.Operator.Questions
import StepShell.Proofs.Redaction.Addresses
import StepShell.Proofs.Redaction.Lines
import StepShell.Proofs.Sandbox.Frame
import StepShell.Proofs.Sandbox.View
import StepShell.Proofs.Script.Account
import StepShell.Proofs.Script.Alternation
import StepShell.Proofs.Script.Clauses
import StepShell.Proofs.Script.Compounds
import StepShell.Proofs.Script.Copying
import StepShell.Proofs.Script.Defines
import StepShell.Proofs.Script.Derivations
import StepShell.Proofs.Script.Formed
import StepShell.Proofs.Script.Grammar
import StepShell.Proofs.Script.Lines
import StepShell.Proofs.Script.Positions
import StepShell.Proofs.Script.Recognition
import StepShell.Proofs.Script.Relocation
import StepShell.Proofs.Script.Rendering
import StepShell.Proofs.Script.Rewording
import StepShell.Proofs.Script.Shifting
import StepShell.Proofs.Script.Steps
import StepShell.Proofs.Session.Cursor
import StepShell.Proofs.Session.Idle
import StepShell.Proofs.Session.Transfer
import StepShell.Proofs.Text.Numerals
import StepShell.Proofs.Token.Extent
import StepShell.Proofs.Token.Layout
import StepShell.Proofs.Token.Literal
import StepShell.Proofs.Token.Parentheses
import StepShell.Proofs.Token.Pieces
import StepShell.Proofs.Token.Rereading
import StepShell.Proofs.Token.Scanning
import StepShell.Proofs.Token.Shifting
import StepShell.Proofs.Token.Spelling
import StepShell.Proofs.Word.Marker
import StepShell.Proofs.Word.Quoting
import StepShell.Proofs.Word.Region
import StepShell.Proofs.Word.Requoting
import StepShell.Proofs.Word.Segments
import StepShell.Proofs.Word.Splicing
import StepShell.Redaction
import StepShell.Sandbox
import StepShell.Sandbox.File
import StepShell.Sandbox.Json
import StepShell.Sandbox.Path
import StepShell.Sandbox.Report
import StepShell.Sandbox.Socket
import StepShell.Sandbox.Variables
import StepShell.Script
import StepShell.Session
import StepShell.Session.Config
import StepShell.Session.Json
import StepShell.Session.Report
import StepShell.Session.Settings
import StepShell.Table
import StepShell.Text.Blank
import StepShell.Text.CodeTable
import StepShell.Text.Decimal
import StepShell.Text.Escape
import StepShell.Text.Hexadecimal
import StepShell.Text.Invisible
import StepShell.Text.Split
import StepShell.Text.UpperCase
import StepShell.Token
import StepShell.Token.Lexer
import StepShell.Url
import StepShell.Url.Domain
import StepShell.Url.Domain.Characters
import StepShell.Url.Domain.Composition
import StepShell.Url.Domain.Direction
import StepShell.Url.Host
import StepShell.Url.Parser
import StepShell.Url.Percent
import StepShell.Url.Punycode
import StepShell.Word
import StepShell.Word.Quote
import StepShell.Word.Region
import StepShell.Word.Splice
