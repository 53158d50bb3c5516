import FactFormula.Check
import FactFormula.Command.Arguments
import FactFormula.Command.Examples
import FactFormula.Command.Failure
import FactFormula.Command.Output
import FactFormula.Command.Result
import FactFormula.Decimal.Layout
import FactFormula.Decimal.Shortest
import FactFormula.Evaluation.Event
import FactFormula.Evaluation.Run
import FactFormula.Expression.Basic
import FactFormula.Expression.Dependencies
import FactFormula.Expression.Parsing
import FactFormula.Expression.Wire
import FactFormula.Facts.Bundled
import FactFormula.Facts.Loading
import FactFormula.Facts.Source
import FactFormula.Facts.Store
import FactFormula.Facts.Table
import FactFormula.Files.Tree
import FactFormula.Hash.Sha256
import FactFormula.Json.Fault
import FactFormula.Json.Format
import FactFormula.Json.Mismatch
import FactFormula.Json.Numeral
import FactFormula.Json.Printer
import FactFormula.Json.Quoted
import FactFormula.Json.Reader
import FactFormula.Json.Record
import FactFormula.Json.Skip
import FactFormula.Json.Value
import FactFormula.Main
import FactFormula.Operator.Arithmetic
import FactFormula.Operator.Registry
import FactFormula.Proofs.Check.FirstProblem
import FactFormula.Proofs.Decimal.Denotation
import FactFormula.Proofs.Decimal.Bits
import FactFormula.Proofs.Decimal.Distinct
import FactFormula.Proofs.Decimal.Grid
import FactFormula.Proofs.Decimal.Neighbours
import FactFormula.Proofs.Evaluation.Caching
import FactFormula.Proofs.Evaluation.Locality
import FactFormula.Proofs.Evaluation.Meaning
import FactFormula.Proofs.Evaluation.Success
import FactFormula.Proofs.Expression.Canonical
import FactFormula.Proofs.Expression.Grammar
import FactFormula.Proofs.Expression.OperandKinds
import FactFormula.Proofs.Expression.RoundTrip
import FactFormula.Proofs.Json.Normal
import FactFormula.Proofs.Json.NumberText
import FactFormula.Proofs.Json.Printed
import FactFormula.Proofs.Json.ReadBack
import FactFormula.Proofs.Json.Slots
import FactFormula.Proofs.Json.Unique
import FactFormula.Proofs.Occurrence
import FactFormula.Proofs.Outcome
import FactFormula.Text.Hidden
import FactFormula.Text.Quoted
import FactFormula.Proofs.Evaluation.Composition
import FactFormula.Proofs.Evaluation.Questions
import FactFormula.Proofs.Evaluation.Reduction
import FactFormula.Proofs.Evaluation.Cause
import FactFormula.Proofs.Evaluation.Log
import FactFormula.Proofs.Facts.Index
import FactFormula.Proofs.Facts.Tables
import FactFormula.Proofs.Evaluation.Extension
import FactFormula.Proofs.Evaluation.Renaming
import FactFormula.Proofs.Evaluation.Dangling
import FactFormula.Proofs.Decimal.Overflow
import FactFormula.Proofs.Json.FiniteNumber
import FactFormula.Proofs.Json.Readings
import FactFormula.Proofs.Expression.Depth
import FactFormula.Proofs.Json.Passing
import FactFormula.Proofs.Json.Straight
import FactFormula.Proofs.Facts.FiniteFacts
import FactFormula.Proofs.Evaluation.FiniteOperands
import FactFormula.Proofs.Json.Repeated
import FactFormula.Proofs.Expression.Routes
import FactFormula.Proofs.Command.Agreement
import FactFormula.Proofs.Expression.Acceptance
import FactFormula.Proofs.Evaluation.Findings
import FactFormula.Proofs.Command.Truncation
import FactFormula.Proofs.Json.WholeNumber
import FactFormula.Proofs.Facts.WrittenTables
import FactFormula.Proofs.Check.Mentions
import FactFormula.Proofs.Operator.History
import FactFormula.Proofs.Text.ByteOrder
import FactFormula.Proofs.Facts.Duplicates
import FactFormula.Proofs.Facts.FirstFailure
import FactFormula.Proofs.Json.ScalarText
import FactFormula.Proofs.Json.Layout
import FactFormula.Proofs.Json.Reordered
import FactFormula.Proofs.Expression.Rearranged
import FactFormula.Proofs.Expression.Decoding
import FactFormula.Proofs.Command.Inspection
import FactFormula.Proofs.Command.Spelling
import FactFormula.Proofs.Command.Waiting
import FactFormula.Proofs.Command.Scanning
import FactFormula.Proofs.Command.Slots
import FactFormula.Proofs.Command.Sources
import FactFormula.Proofs.Command.Lines
