import SchedLatency.CommandLine
import SchedLatency.Poller.Cycle

namespace SchedLatency

structure Settings.Output where
  pid : Option EntityId
  rangeMode : Option RangeMode
  histogram : Option Bool
  percentiles : Option (List Float)
  p99 : Option Bool
  timestamp : Option Bool
  deriving DecidableEq

structure Settings where
  objectPath : Option String
  mapName : Option String
  keyLayout : KeyLayout
  duplicatePolicy : DuplicatePolicy
  interval : Option UInt64
  iterations : Option UInt64
  output : Settings.Output
  deriving DecidableEq

namespace Settings

def Output.unset : Output := ⟨none,none,none,none,none,none⟩

def unset : Settings := ⟨none,none,.wide,.sum,none,none,.unset⟩

def standardObject : String := "runqlat.o"

def standardMap : String := "dist"

def standardInterval : UInt64 := 5

def objectFile (s : Settings) : String := s.objectPath.getD standardObject

def map (s : Settings) : String := s.mapName.getD standardMap

/-- Seconds between reports; zero counts as not set. -/
def seconds (s : Settings) : UInt64 :=
  match s.interval with
  | some n => if n=0 then standardInterval else n
  | none => standardInterval

def timestamp (s : Settings) : Bool := s.output.timestamp.getD false

def reportOptions (s : Settings) : Report.Options where
  pid := s.output.pid
  rangeMode := s.output.rangeMode.getD .log2
  histogram := s.output.histogram.getD true
  percentiles := s.output.percentiles.getD []
  p99 := s.output.p99.getD false

def pollerConfig (s : Settings) : Poller.Config where
  interval := 1000*s.seconds.toNat
  iterations := s.iterations
  policy := s.duplicatePolicy
  report := s.reportOptions
  timestamp := s.timestamp

def orElse {α : Type} (new old : Option α) : Option α :=
  match new with
  | some a => some a
  | none => old

/-- The value that a flag forces, if it is given. -/
def forced {α : Type} (flag : Bool) (a : α) (old : Option α) : Option α :=
  if flag then some a else old

def override (s : Settings) (c : CommandLine) : Settings where
  objectPath := orElse c.object s.objectPath
  mapName := orElse c.map s.mapName
  keyLayout := c.keyLayout.getD s.keyLayout
  duplicatePolicy := c.duplicates.getD s.duplicatePolicy
  interval := orElse c.interval s.interval
  iterations := orElse c.iterations s.iterations
  output :=
    { pid := orElse c.pid s.output.pid
      rangeMode := forced c.raw .raw s.output.rangeMode
      histogram := forced c.noHistogram false s.output.histogram
      percentiles := orElse c.percentiles s.output.percentiles
      p99 := forced c.p99 true s.output.p99
      timestamp := forced c.timestamp true s.output.timestamp }

theorem seconds_pos (s : Settings) : 0<s.seconds.toNat := by
  have h : s.seconds≠0 := by
    unfold seconds
    split
    · split
      · decide
      · assumption
    · decide
  exact Nat.pos_of_ne_zero fun hz => h (UInt64.toNat_inj.mp hz)

theorem override_override (s : Settings) (c : CommandLine) :
    (s.override c).override c=s.override c := by
  have h {α : Type} (new old : Option α) : orElse new (orElse new old)=orElse new old := by
    cases new <;> rfl
  have hf {α : Type} (flag : Bool) (a : α) (old : Option α) :
      forced flag a (forced flag a old)=forced flag a old := by
    cases flag <;> rfl
  have hg {α : Type} (new : Option α) (old : α) : new.getD (new.getD old)=new.getD old := by
    cases new <;> rfl
  simp only [override,h,hf,hg]

end Settings
end SchedLatency
