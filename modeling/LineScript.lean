import LineScript.Text.Bytes
import LineScript.Text.Blank
import LineScript.Text.Decimal
import LineScript.Text.Printable
import LineScript.Text.Quoted
import LineScript.Kind
import LineScript.Value.Basic
import LineScript.Value.Arithmetic
import LineScript.Cause
import LineScript.Contract
import LineScript.Token
import LineScript.Statement
import LineScript.Failure
import LineScript.Source
import LineScript.Scanner
import LineScript.Table
import LineScript.Store
import LineScript.Streams
import LineScript.Context
import LineScript.Builtin
import LineScript.Expression
import LineScript.Target
import LineScript.Execution
import LineScript.Machine
import LineScript.Report
import LineScript.Yaml.Lookalike
import LineScript.Yaml.Scalar
import LineScript.Yaml.Chunk
import LineScript.Yaml.Step
import LineScript.Yaml.Node
import LineScript.Yaml.Encoder
import LineScript.Dump
import LineScript.Session
import LineScript.Command.Options
import LineScript.Command.Action
import LineScript.Command.Help
import LineScript.Command.Completion
import LineScript.Command.Request
import LineScript.Command.Files
import LineScript.Command.Interpreter
import LineScript.Command.TokenList
import LineScript.Main
import LineScript.Proofs.Tables
import LineScript.Proofs.Numerals
import LineScript.Proofs.Grammar
import LineScript.Proofs.TreeEvaluation
import LineScript.Proofs.LineAcceptance
import LineScript.Proofs.EvaluationInvariants
import LineScript.Proofs.Occurrences
import LineScript.Proofs.LineBuffer
import LineScript.Proofs.Visible
import LineScript.Proofs.WholeMachine
import LineScript.Proofs.WholeProgram
import LineScript.Proofs.Brackets
import LineScript.Proofs.LineFrame
import LineScript.Proofs.TypedStore
import LineScript.Proofs.FatalFailures
import LineScript.Proofs.TokenPlaces
import LineScript.Proofs.Diagnostics
import LineScript.Proofs.Pieces
import LineScript.Proofs.Feeding
import LineScript.Proofs.OpenBrackets
import LineScript.Proofs.Lexemes
import LineScript.Proofs.Nesting
import LineScript.Proofs.Readings
import LineScript.Proofs.Arguments
import LineScript.Proofs.Equality
import LineScript.Proofs.Checking
import LineScript.Proofs.Variants
import LineScript.Proofs.EqualArguments
import LineScript.Proofs.FailureCauses
import LineScript.Proofs.NumberReadings
import LineScript.Proofs.RunFailures
import LineScript.Proofs.Endings
import LineScript.Proofs.ClosedBrackets
import LineScript.Proofs.Words
import LineScript.Proofs.MidLine
import LineScript.Proofs.Writes
import LineScript.Proofs.QuotedTexts
import LineScript.Proofs.Layouts
import LineScript.Proofs.PrintedTexts
import LineScript.Proofs.LineStarts
import LineScript.Proofs.Debugging
import LineScript.Proofs.StrictCalls
import LineScript.Proofs.StrictEvaluation
import LineScript.Proofs.Extents
import LineScript.Proofs.Consumption
import LineScript.Proofs.StrictExecution
import LineScript.Proofs.StrictRuns
import LineScript.Proofs.Concatenation
import LineScript.Proofs.InputReads
import LineScript.Proofs.SharedLines
import LineScript.Proofs.PhysicalLines
import LineScript.Proofs.WellFormedTexts
import LineScript.Proofs.Spelling
import LineScript.Proofs.DumpedStates
import LineScript.Proofs.DumpedEntries
import LineScript.Proofs.NamedLabels
import LineScript.Proofs.AskedJumps
import LineScript.Proofs.Jumps
