import SourceAudit.Audit
import SourceAudit.Collector
import SourceAudit.Config
import SourceAudit.Entropy
import SourceAudit.Export.Json
import SourceAudit.Export.Quoted
import SourceAudit.Export.Text
import SourceAudit.Export.Xml
import SourceAudit.Grammar.Statement
import SourceAudit.PatternRule
import SourceAudit.Project
import SourceAudit.Proofs.Grammar.ExpressionRoundTrip
import SourceAudit.Proofs.Grammar.OutlineRoundTrip
import SourceAudit.Proofs.Grammar.SourceOrder
import SourceAudit.Proofs.Grammar.Unfinished
import SourceAudit.Proofs.Syntax.Scopes
import SourceAudit.Proofs.Audit.Selection
import SourceAudit.Proofs.Taint.ScanState
import SourceAudit.Proofs.Rules.Chains
import SourceAudit.Proofs.Rules.LeadingText
import SourceAudit.Proofs.Audit.PatternFindings
import SourceAudit.Registry
import SourceAudit.Report
import SourceAudit.Rules.Builtin
import SourceAudit.Suppression
import SourceAudit.Taint
import SourceAudit.Url
import SourceAudit.Proofs.Audit.Allowance
import SourceAudit.Proofs.Audit.CommentDirectives
import SourceAudit.Proofs.Audit.Scheduling
import SourceAudit.Proofs.Audit.PatternTexts
import SourceAudit.Proofs.Taint.Monotone
import SourceAudit.Proofs.Audit.Locality
import SourceAudit.Proofs.Scanner.BlankLines
import SourceAudit.Proofs.Grammar.LineJoining
import SourceAudit.Proofs.Syntax.Names
import SourceAudit.Proofs.Grammar.ExpressionTakings
import SourceAudit.Proofs.Grammar.StatementTakings
import SourceAudit.Proofs.Grammar.Progress
import SourceAudit.Proofs.Grammar.Acceptance
import SourceAudit.Proofs.Grammar.ReplacementLines
import SourceAudit.Proofs.Grammar.FieldLines
import SourceAudit.Proofs.Grammar.FieldRoundTrip
import SourceAudit.Proofs.Grammar.PrecedenceClimbing
import SourceAudit.Proofs.Grammar.IntegerLiterals
import SourceAudit.Proofs.Audit.LineNumbering
import SourceAudit.Proofs.Scanner.Faults
import SourceAudit.Proofs.Scanner.Termination
import SourceAudit.Proofs.Scanner.Coverage
import SourceAudit.Proofs.Audit.Presets
import SourceAudit.Proofs.Export.XmlReading
import SourceAudit.Proofs.Audit.Interleaving
import SourceAudit.Proofs.Export.TextLines
import SourceAudit.Proofs.Audit.LiveSinks
