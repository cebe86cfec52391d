import SchedLatency.Association
import SchedLatency.EntityMap
import SchedLatency.Histogram

namespace SchedLatency

inductive DuplicatePolicy where
  /-- Their counts are added into a single bucket. -/
  | sum
  /-- Each stays a bucket of its own. -/
  | keep
  deriving DecidableEq, Repr

abbrev SlotKey := EntityId×UInt64

abbrev Tally := List (SlotKey×Counter)

def Tally.add (key : SlotKey) (count : Counter) (t : Tally) : Tally :=
  Association.alter key (fun sum => Counter.add (sum.getD 0) count) t

/-- An order in which the entries of a tally may be enumerated. -/
structure Enumeration where
  arrange : Tally → Tally
  perm : ∀ t,(arrange t).Perm t

def Enumeration.firstSeen : Enumeration := ⟨id,fun _ => .refl _⟩

/-- One sorted histogram per entity, and how many records were left out. -/
@[ext] structure Snapshot where
  histograms : EntityMap Histogram
  skipped : Nat
  deriving DecidableEq

namespace Snapshot

def empty : Snapshot := ⟨.empty,0⟩

def get? (s : Snapshot) (id : EntityId) : Option Histogram := s.histograms.get? id

def size (s : Snapshot) : Nat := s.histograms.entries.length

def isEmpty (s : Snapshot) : Bool := s.histograms.entries.isEmpty

def restrict (s : Snapshot) (id : EntityId) : Snapshot :=
  {s with histograms := s.histograms.filterIds (·==id)}

/-- Records grouped so far: those to be summed in a tally, those to be kept in histograms, how many
were left out, and what was complained about. -/
structure Grouping where
  policy : DuplicatePolicy
  tally : Tally
  histograms : EntityMap Histogram
  skipped : Nat
  warnings : List SourceError
  deriving DecidableEq

namespace Grouping

def start (policy : DuplicatePolicy) : Grouping := ⟨policy,[],.empty,0,[]⟩

def pushBucket (m : EntityMap Histogram) (id : EntityId) (b : Bucket) : EntityMap Histogram :=
  m.alter id fun h => (h.getD .empty).push b

def addSample (g : Grouping) (s : Sample) : Grouping :=
  match g.policy with
  | .sum => {g with tally := g.tally.add (s.entity,s.slot) s.count}
  | .keep => {g with histograms := pushBucket g.histograms s.entity ⟨s.slot,s.count⟩}

def add (g : Grouping) : Record → Grouping
  | .sample s => g.addSample s
  | .fault e => {g with warnings := g.warnings++[e],skipped := g.skipped+1}

/-- Moves the tally into the histograms, in the given order, and sorts every histogram. -/
def toSnapshot (order : Enumeration) (g : Grouping) : Snapshot :=
  let grouped := (order.arrange g.tally).foldl
    (fun m e => pushBucket m e.1.1 ⟨e.1.2,e.2⟩) g.histograms
  ⟨grouped.mapValues Histogram.sort,g.skipped⟩

end Grouping

def ofRecordsIn (order : Enumeration) (policy : DuplicatePolicy) (records : List Record) :
    Snapshot :=
  (records.foldl Grouping.add (.start policy)).toSnapshot order

def ofRecords (policy : DuplicatePolicy) (records : List Record) : Snapshot :=
  ofRecordsIn .firstSeen policy records

/-- A pass under way: the first fatal error closes it to all later records. -/
structure Collector where
  fatal : Option SourceError
  grouping : Grouping
  deriving DecidableEq

namespace Collector

def start (policy : DuplicatePolicy) : Collector := ⟨none,.start policy⟩

def receive (c : Collector) (r : Record) : Collector :=
  match c.fatal,r with
  | some _,_ => c
  | none,.fault e =>
    if e.isRecoverable then {c with grouping := c.grouping.add (.fault e)}
    else {c with fatal := some e}
  | none,.sample s => {c with grouping := c.grouping.add (.sample s)}

end Collector

structure Collection where
  outcome : Except SourceError Snapshot
  skipped : List SourceError

/-- Runs one pass. The error with which the pass ends wins over one met among its records, and
that one over the snapshot. -/
def buildIn (order : Enumeration) (policy : DuplicatePolicy) (pass : Pass) : Collection :=
  let c := pass.records.foldl Collector.receive (.start policy)
  let outcome := match pass.failure,c.fatal with
    | some e,_ => .error e
    | none,some e => .error e
    | none,none => .ok (c.grouping.toSnapshot order)
  ⟨outcome,c.grouping.warnings⟩

def build (policy : DuplicatePolicy) (pass : Pass) : Collection := buildIn .firstSeen policy pass

def faults (records : List Record) : List SourceError := records.filterMap Record.fault?

def skipWarning (e : SourceError) : String := "Skipping record: " ++ e.message

end Snapshot
end SchedLatency
