import ProcessProbe.Capability.Basic
import ProcessProbe.Capability.Detection
import ProcessProbe.CommandLine.Answer
import ProcessProbe.CommandLine.Arguments
import ProcessProbe.CommandLine.Basic
import ProcessProbe.CommandLine.Help
import ProcessProbe.CommandLine.Run
import ProcessProbe.Diagnostic.Capture
import ProcessProbe.Diagnostic.Output
import ProcessProbe.Diagnostic.Policy
import ProcessProbe.Diagnostic.Registry
import ProcessProbe.Diagnostic.Supervision
import ProcessProbe.ExitCode
import ProcessProbe.Failure
import ProcessProbe.Host.Inquiry
import ProcessProbe.Host.Path
import ProcessProbe.Host.Request
import ProcessProbe.Host.SystemError
import ProcessProbe.Journal.Directive
import ProcessProbe.Journal.Entry
import ProcessProbe.Journal.Filter
import ProcessProbe.Journal.Level
import ProcessProbe.Journal.Line
import ProcessProbe.Journal.Options
import ProcessProbe.Journal.Test
import ProcessProbe.Json.Basic
import ProcessProbe.Json.Printer
import ProcessProbe.Json.Reader
import ProcessProbe.Json.Real
import ProcessProbe.Json.Record
import ProcessProbe.Machine.Basic
import ProcessProbe.Machine.FileSystem
import ProcessProbe.Main
import ProcessProbe.Pattern.Atom
import ProcessProbe.Pattern.Basic
import ProcessProbe.Pattern.Bracket
import ProcessProbe.Pattern.CharSet
import ProcessProbe.Pattern.Modes
import ProcessProbe.Pattern.Part
import ProcessProbe.Pattern.Program
import ProcessProbe.Pattern.Reader
import ProcessProbe.Process.Enumeration
import ProcessProbe.Process.Handle
import ProcessProbe.Process.Liveness
import ProcessProbe.Process.Relation
import ProcessProbe.Proofs.Capability.Detection
import ProcessProbe.Proofs.CommandLine.Answer
import ProcessProbe.Proofs.CommandLine.Directory
import ProcessProbe.Proofs.CommandLine.Events
import ProcessProbe.Proofs.CommandLine.Exit
import ProcessProbe.Proofs.CommandLine.Settings
import ProcessProbe.Proofs.Diagnostic.Capture
import ProcessProbe.Proofs.Diagnostic.Deadline
import ProcessProbe.Proofs.Diagnostic.Draining
import ProcessProbe.Proofs.Diagnostic.History
import ProcessProbe.Proofs.Diagnostic.Policy
import ProcessProbe.Proofs.Diagnostic.Registration
import ProcessProbe.Proofs.Diagnostic.Schedule
import ProcessProbe.Proofs.Host.CanonicalPath
import ProcessProbe.Proofs.Host.Exchange
import ProcessProbe.Proofs.Host.Path
import ProcessProbe.Proofs.Host.Started
import ProcessProbe.Proofs.Host.Steady
import ProcessProbe.Proofs.Host.Transcript
import ProcessProbe.Proofs.Journal.Correlation
import ProcessProbe.Proofs.Journal.Events
import ProcessProbe.Proofs.Journal.Recorded
import ProcessProbe.Proofs.Json.Integer
import ProcessProbe.Proofs.Json.Token
import ProcessProbe.Proofs.Json.Written
import ProcessProbe.Proofs.Machine.LexicalForm
import ProcessProbe.Proofs.Machine.Resolution
import ProcessProbe.Proofs.Process.Enumeration
import ProcessProbe.Proofs.Process.Evidence
import ProcessProbe.Proofs.Process.HandleOrigin
import ProcessProbe.Proofs.Process.Liveness
import ProcessProbe.Proofs.Process.Parentage
import ProcessProbe.Proofs.Process.ProcessFiles
import ProcessProbe.Proofs.Process.RelationTable
import ProcessProbe.Proofs.Process.ReportedTable
import ProcessProbe.Proofs.Process.Snapshot
import ProcessProbe.Proofs.Process.TableDocument
import ProcessProbe.Proofs.Query.Agreement
import ProcessProbe.Proofs.Query.Answers
import ProcessProbe.Proofs.Query.CanonicalAnswers
import ProcessProbe.Proofs.Query.ChildReport
import ProcessProbe.Proofs.Query.Discipline
import ProcessProbe.Proofs.Query.Events
import ProcessProbe.Proofs.Query.ExistingDirectory
import ProcessProbe.Proofs.Query.Failures
import ProcessProbe.Proofs.Query.Inspector
import ProcessProbe.Proofs.Query.Names
import ProcessProbe.Proofs.Query.Order
import ProcessProbe.Proofs.Query.OwnDiagnostics
import ProcessProbe.Proofs.Query.Probes
import ProcessProbe.Proofs.Query.ProperRuns
import ProcessProbe.Proofs.Query.RawAnswers
import ProcessProbe.Proofs.Query.RefusedReports
import ProcessProbe.Proofs.Query.Reported
import ProcessProbe.Proofs.Query.Spoofing
import ProcessProbe.Proofs.Query.Subprocesses
import ProcessProbe.Proofs.Query.Vanished
import ProcessProbe.Proofs.Query.WorkingDirectory
import ProcessProbe.Proofs.Report.ChildList
import ProcessProbe.Proofs.Report.DirectoryRecord
import ProcessProbe.Proofs.Report.ProcessTable
import ProcessProbe.Proofs.Report.StatLayout
import ProcessProbe.Proofs.Report.StatRecord
import ProcessProbe.Proofs.Report.WorkingDirectory
import ProcessProbe.Proofs.Settings.Document
import ProcessProbe.Proofs.Settings.Environment
import ProcessProbe.Proofs.Text.Decimal
import ProcessProbe.Proofs.Text.Lines
import ProcessProbe.Proofs.Text.Utf8
import ProcessProbe.Proofs.Text.Words
import ProcessProbe.Query.Inspector
import ProcessProbe.Query.Order
import ProcessProbe.Query.Subprocesses
import ProcessProbe.Query.WorkingDirectory
import ProcessProbe.Report.ChildList
import ProcessProbe.Report.Defect
import ProcessProbe.Report.ProcessTable
import ProcessProbe.Report.StatRecord
import ProcessProbe.Report.WorkingDirectory
import ProcessProbe.Settings
import ProcessProbe.Text.Blank
import ProcessProbe.Text.Duration
import ProcessProbe.Text.Integer
import ProcessProbe.Text.Lines
import ProcessProbe.Text.Named
import ProcessProbe.Text.Quoted
import ProcessProbe.Text.Real
import ProcessProbe.Text.Timestamp
import ProcessProbe.Text.Utf8
import ProcessProbe.Text.Visible
