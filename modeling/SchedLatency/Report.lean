import SchedLatency.LatencyRange
import SchedLatency.Percentile
import SchedLatency.Snapshot
import SchedLatency.Text.Align

namespace SchedLatency.Report

structure Options where
  pid : Option EntityId
  rangeMode : RangeMode
  histogram : Bool
  /-- Percentiles to tabulate; without any there is no such table. -/
  percentiles : List Float
  p99 : Bool
  deriving DecidableEq

def Options.standard : Options := ⟨none,.log2,true,[],false⟩

def passes (pid : Option EntityId) (id : EntityId) : Bool :=
  match pid with
  | none => true
  | some p => p==id

def selected (s : Snapshot) (pid : Option EntityId) : List (EntityId×Histogram) :=
  s.histograms.entries.filter fun e => passes pid e.1

theorem selected_none (s : Snapshot) : selected s none=s.histograms.entries :=
  List.filter_eq_self.mpr fun _ _ => rfl

def rule : String := "------------------------"

def unlines : List String → String
  | [] => ""
  | line :: rest => line ++ "\n" ++ unlines rest

def number (n : Nat) : String := Decimal.digits n

def bucketLine (mode : RangeMode) (b : Bucket) : String :=
  Text.alignRight 20 (mode.label b.slot) ++ ": " ++ Text.alignRight 10 (number b.count.toNat)

def histogramText (mode : RangeMode) (h : Histogram) : String :=
  unlines (h.buckets.map (bucketLine mode))

def entityText (mode : RangeMode) (e : EntityId×Histogram) : String :=
  "Pid=" ++ number e.1.toNat ++ " | " ++ mode.heading ++ "  |  Count\n" ++
    histogramText mode e.2 ++ "\n"

def concat : List String → String
  | [] => ""
  | text :: rest => text++concat rest

def histograms (s : Snapshot) (options : Options) : String :=
  "Run Queue Latency Histogram:\n" ++ rule ++ "\n" ++
    concat ((selected s options.pid).map (entityText options.rangeMode))++rule ++ "\n"

/-- Text of an estimate. A refused query shows a dash, which is no latency at all. -/
def cell : Except QueryError Estimate → String
  | .ok (.slot slot) => number slot.toNat
  | .ok (.interpolated x) => Decimal.fixed 0 x
  | .error _ => "-"

def percentileHeading (p : Float) : String := "| p" ++ Decimal.fixed 2 p ++ " Latency (us) "

def entityCell (id : EntityId) : String := Text.alignLeft 8 (number id.toNat)

def estimateCell (r : Except QueryError Estimate) : String := "|    " ++ Text.alignRight 10 (cell r)

def percentileRow (percentiles : List Float) (e : EntityId×Histogram) : String :=
  entityCell e.1++
    concat (percentiles.map fun p => estimateCell (e.2.estimate .bucketFloor p))

def percentileTable (s : Snapshot) (percentiles : List Float) (pid : Option EntityId) : String :=
  "Run Queue Latency -- Percentiles\n" ++ " Pid    " ++ concat (percentiles.map percentileHeading)++
    "\n" ++ rule ++ "\n" ++ unlines ((selected s pid).map (percentileRow percentiles))++rule ++ "\n"

def p99 : Float := 99

def p99Row (e : EntityId×Histogram) : String :=
  entityCell e.1++estimateCell (e.2.estimate .interpolated p99) ++ " "

def p99Table (s : Snapshot) (pid : Option EntityId) : String :=
  "Run Queue Latency P99:\n" ++ " Pid    | P99 Latency (us) \n" ++ rule ++ "\n" ++
    unlines ((selected s pid).map p99Row)++rule ++ "\n"

/-- Sections with an empty line between neighbours. -/
def joinSections : List String → String
  | [] => ""
  | [section_] => section_
  | section_ :: rest => section_ ++ "\n" ++ joinSections rest

def sections (s : Snapshot) (options : Options) : List String :=
  (if options.histogram then [histograms s options] else [])++
  (if options.percentiles.isEmpty then []
    else [percentileTable s options.percentiles options.pid])++
  (if options.p99 then [p99Table s options.pid] else [])

def noData : String := "No data recorded yet.\n"

def render (s : Snapshot) (options : Options) : String :=
  if s.isEmpty then noData else joinSections (sections s options)

end SchedLatency.Report
