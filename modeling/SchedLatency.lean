import SchedLatency.Counter
import SchedLatency.Decimal.Plain
import SchedLatency.Decimal.Reading
import SchedLatency.Text.Align
import SchedLatency.Text.Blank
import SchedLatency.Text.Lowercase
import SchedLatency.Text.Quoted
import SchedLatency.Percentile
import SchedLatency.EntityMap
import SchedLatency.Report
import SchedLatency.Poller.Run
import SchedLatency.CommandLine
import SchedLatency.Config.KeyPath
import SchedLatency.Config.DotEnv
import SchedLatency.Config.Environment
import SchedLatency.Yaml.Cursor
import SchedLatency.Yaml.Token
import SchedLatency.Yaml.Gap
import SchedLatency.Yaml.Quoted
import SchedLatency.Yaml.Plain
import SchedLatency.Yaml.Block
import SchedLatency.Yaml.Tag
import SchedLatency.Yaml.Directive
import SchedLatency.Yaml.Lexer
import SchedLatency.Yaml.Node
import SchedLatency.Kernel.Object
import SchedLatency.Files
import SchedLatency.Config.File
import SchedLatency.Settings.Loading
import SchedLatency.Program
import SchedLatency.Main
import SchedLatency.Proofs.Grouping
import SchedLatency.Proofs.Buckets
import SchedLatency.Proofs.Collecting
import SchedLatency.Proofs.FloorSlot
import SchedLatency.Proofs.PolicyAgreement
import SchedLatency.Proofs.Delivery
import SchedLatency.Proofs.Counting
import SchedLatency.Proofs.Cancellation
import SchedLatency.Proofs.EntityFilter
import SchedLatency.Proofs.EndPoints
import SchedLatency.Proofs.ModeOrder
import SchedLatency.Proofs.Answers
import SchedLatency.Proofs.LastResort
import SchedLatency.Proofs.Keeping
import SchedLatency.Proofs.Tables.Section
import SchedLatency.Proofs.Tables.Rows
import SchedLatency.Proofs.Layers.Precedence
import SchedLatency.Proofs.Timing
import SchedLatency.Proofs.Ranges
import SchedLatency.Proofs.CanonicalForm
import SchedLatency.Proofs.Spelling.Percentiles
import SchedLatency.Proofs.WholePercent
import SchedLatency.Proofs.Traversal
