import PracticeGrammar.FileFailure
import PracticeGrammar.Loading
import PracticeGrammar.Main
import PracticeGrammar.NameMap
import PracticeGrammar.Notice
import PracticeGrammar.Numeral
import PracticeGrammar.RuleSet
import PracticeGrammar.Validation
import PracticeGrammar.Violation
import PracticeGrammar.Workbench
import PracticeGrammar.Binary64.Basic
import PracticeGrammar.Binary64.Rounding
import PracticeGrammar.Binary64.Shortest
import PracticeGrammar.CommandLine.Check
import PracticeGrammar.CommandLine.FileTree
import PracticeGrammar.CommandLine.LogFilter
import PracticeGrammar.CommandLine.Options
import PracticeGrammar.Compiled.Cause
import PracticeGrammar.Compiled.Draft
import PracticeGrammar.Compiled.Focus
import PracticeGrammar.Compiled.Reader
import PracticeGrammar.Compiled.Shape
import PracticeGrammar.Json.Escape
import PracticeGrammar.Json.Fault
import PracticeGrammar.Json.Lexemes
import PracticeGrammar.Json.Scanned
import PracticeGrammar.Json.Token
import PracticeGrammar.Production.Basic
import PracticeGrammar.Production.Equality
import PracticeGrammar.Proofs.FirstViolation
import PracticeGrammar.Proofs.NameMaps
import PracticeGrammar.Proofs.NameOrder
import PracticeGrammar.Proofs.ProductionNodes
import PracticeGrammar.Proofs.Violations
import PracticeGrammar.Proofs.Walks
import PracticeGrammar.Proofs.WellFormedness
import PracticeGrammar.Text.Alphanumeric
import PracticeGrammar.Text.Blank
import PracticeGrammar.Text.Plain
import PracticeGrammar.Proofs.BinaryValues
import PracticeGrammar.Proofs.BinaryRounding
import PracticeGrammar.Proofs.JsonGrammar
import PracticeGrammar.Proofs.JsonNumerals
import PracticeGrammar.Proofs.JsonStrings
import PracticeGrammar.Proofs.JsonScanning
import PracticeGrammar.Proofs.CompiledEncoding
import PracticeGrammar.Proofs.CompiledReading
import PracticeGrammar.Proofs.EqualGrammars
import PracticeGrammar.Proofs.RoundTrip
import PracticeGrammar.Proofs.Reachability
import PracticeGrammar.Proofs.UsageCheck
import PracticeGrammar.Proofs.PlainMessages
import PracticeGrammar.Proofs.CompiledShapes
import PracticeGrammar.Proofs.UnknownTags
import PracticeGrammar.Proofs.LenientFormat
import PracticeGrammar.Proofs.ReadingRules
import PracticeGrammar.Proofs.ReadingSteps
import PracticeGrammar.Proofs.LenientReading
import PracticeGrammar.Proofs.Acceptance
import PracticeGrammar.Proofs.Findings
import PracticeGrammar.Proofs.Traces
import PracticeGrammar.Proofs.Tables
import PracticeGrammar.Proofs.InsertionOrder
import PracticeGrammar.Proofs.SingleEdits
import PracticeGrammar.Proofs.Renaming
import PracticeGrammar.Proofs.Unions
import PracticeGrammar.Proofs.EqualTables
import PracticeGrammar.Proofs.EqualityLaws
import PracticeGrammar.Proofs.VisitNotices
import PracticeGrammar.Proofs.ControlSequences
import PracticeGrammar.Proofs.PlainForm
import PracticeGrammar.Proofs.Refusals
import PracticeGrammar.Proofs.TokenPlaces
import PracticeGrammar.Proofs.FailureOffsets
import PracticeGrammar.Proofs.LeadingSpace
import PracticeGrammar.Proofs.NumberSpellings
import PracticeGrammar.Proofs.ProbabilitySources
import PracticeGrammar.Proofs.FileVerdicts
