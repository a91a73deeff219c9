import StackMachine.Assembly
import StackMachine.Binary.Arithmetic
import StackMachine.Binary.Basic
import StackMachine.Binary.Shortest
import StackMachine.Binary.Text
import StackMachine.Command.Arguments
import StackMachine.Command.Execution
import StackMachine.Command.Invocation
import StackMachine.Command.Report
import StackMachine.Decimal.Arithmetic
import StackMachine.Decimal.Basic
import StackMachine.Decimal.Context
import StackMachine.Decimal.Text
import StackMachine.Instruction
import StackMachine.Json.Basic
import StackMachine.Json.Reader
import StackMachine.Json.Text
import StackMachine.Kind
import StackMachine.Machine.Basic
import StackMachine.Machine.Config
import StackMachine.Machine.Request
import StackMachine.Main
import StackMachine.Numeral
import StackMachine.Process
import StackMachine.Proofs.ArithmeticFailure
import StackMachine.Proofs.Atomicity
import StackMachine.Proofs.BinaryRounding
import StackMachine.Proofs.CleanedSources
import StackMachine.Proofs.CloseMultiples
import StackMachine.Proofs.Commutativity
import StackMachine.Proofs.Concatenation
import StackMachine.Proofs.CrashFreedom
import StackMachine.Proofs.DecimalDivision
import StackMachine.Proofs.DecimalReading
import StackMachine.Proofs.DecimalRounding
import StackMachine.Proofs.Disassembly
import StackMachine.Proofs.Encoding
import StackMachine.Proofs.ExactDecimals
import StackMachine.Proofs.FloatLiterals
import StackMachine.Proofs.FloatMiddles
import StackMachine.Proofs.FloatRoundTrip
import StackMachine.Proofs.FloatTexts
import StackMachine.Proofs.FrontEnds
import StackMachine.Proofs.HalfwayNumbers
import StackMachine.Proofs.Histories
import StackMachine.Proofs.IntegerDivision
import StackMachine.Proofs.IntegerPromotion
import StackMachine.Proofs.Isolation
import StackMachine.Proofs.KindAnalysis
import StackMachine.Proofs.Ledger
import StackMachine.Proofs.Lifecycle
import StackMachine.Proofs.Lifetime
import StackMachine.Proofs.LiteralFrames
import StackMachine.Proofs.LiteralGrammar
import StackMachine.Proofs.Literals
import StackMachine.Proofs.LosslessPromotion
import StackMachine.Proofs.MessageTexts
import StackMachine.Proofs.NearestNumbers
import StackMachine.Proofs.NeutralSnippets
import StackMachine.Proofs.NumberNeighbours
import StackMachine.Proofs.NumberTexts
import StackMachine.Proofs.NumericEquality
import StackMachine.Proofs.OpenSinks
import StackMachine.Proofs.PartialArithmetic
import StackMachine.Proofs.PlainNumbers
import StackMachine.Proofs.Quantities
import StackMachine.Proofs.RoundRobin
import StackMachine.Proofs.RoundingTwice
import StackMachine.Proofs.Scheduling
import StackMachine.Proofs.SequentialRuns
import StackMachine.Proofs.ShortestDecimals
import StackMachine.Proofs.Slicing
import StackMachine.Proofs.Step
import StackMachine.Proofs.Termination
import StackMachine.Proofs.Turns
import StackMachine.Proofs.UndecodableBytes
import StackMachine.ReadError
import StackMachine.Rounding
import StackMachine.Service.Body
import StackMachine.Service.Integer
import StackMachine.Service.Issue
import StackMachine.Service.Route
import StackMachine.Sink
import StackMachine.Text.Blank
import StackMachine.Text.Digit
import StackMachine.Text.Lines
import StackMachine.Text.Plain
import StackMachine.Text.Printable
import StackMachine.Text.Quoted
import StackMachine.Text.Utf8
import StackMachine.Value.Arithmetic
import StackMachine.Value.Basic
import StackMachine.Value.Conversion
import StackMachine.Value.Literal
import StackMachine.Value.Operator
import StackMachine.Value.Promotion
import StackMachine.Proofs.RejectedLines
