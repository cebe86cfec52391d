import Mathlib.Data.String.Basic
import SchedLatency.Proofs.Tables.Reading
import SchedLatency.Text.Lowercase

namespace SchedLatency.Text

open String

end SchedLatency.Text
