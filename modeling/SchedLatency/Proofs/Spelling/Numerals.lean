import SchedLatency.Proofs.Double.Integer
import SchedLatency.Proofs.Tables.Figures
import SchedLatency.Yaml.Node

namespace SchedLatency.Decimal

section Characters

variable {c : Char}

end Characters

end SchedLatency.Decimal

namespace SchedLatency.Yaml.Node

open Decimal

end SchedLatency.Yaml.Node
