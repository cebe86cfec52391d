import SchedLatency.Proofs.Layers.Lookup
import SchedLatency.Settings.Decoding

namespace SchedLatency.Settings

open Config

inductive Key where
  | objectPath | mapName | keyLayout | duplicatePolicy | interval | iterations
  | pid | rangeMode | histogram | percentiles | p99 | timestamp
  deriving DecidableEq, Repr

namespace Key

def name : Key → String
  | objectPath => "object_path"
  | mapName => "map_name"
  | keyLayout => "key_layout"
  | duplicatePolicy => "duplicate_policy"
  | interval => "interval_secs"
  | iterations => "iterations"
  | pid => "pid"
  | rangeMode => "range_mode"
  | histogram => "histogram"
  | percentiles => "percentiles"
  | p99 => "p99"
  | timestamp => "timestamp"

def inOutput : Key → Bool
  | pid | rangeMode | histogram | percentiles | p99 | timestamp => true
  | _ => false

def path (k : Key) : List String := if k.inOutput then ["output",k.name] else [k.name]

abbrev Given : Key → Type
  | objectPath | mapName => String
  | keyLayout => KeyLayout
  | duplicatePolicy => DuplicatePolicy
  | interval | iterations => UInt64
  | pid => EntityId
  | rangeMode => RangeMode
  | histogram | p99 | timestamp => Bool
  | percentiles => List Float

abbrev Effect : Key → Type
  | objectPath | mapName => String
  | keyLayout => KeyLayout
  | duplicatePolicy => DuplicatePolicy
  | interval => Nat
  | iterations => Option UInt64
  | pid => Option EntityId
  | rangeMode => RangeMode
  | histogram | p99 | timestamp => Bool
  | percentiles => List Float

/-- What a setting is in effect after something has been said about it, or nothing. The interval
is in milliseconds, and an interval of zero is as good as none. -/
def resolve : (k : Key) → Option k.Given → k.Effect
  | objectPath,g => g.getD "runqlat.o"
  | mapName,g => g.getD "dist"
  | keyLayout,g => g.getD .wide
  | duplicatePolicy,g => g.getD .sum
  | interval,g => 1000*((g.map UInt64.toNat).filter (0<·)).getD 5
  | iterations,g => g
  | pid,g => g
  | rangeMode,g => g.getD .log2
  | histogram,g => g.getD true
  | percentiles,g => g.getD []
  | p99,g | timestamp,g => g.getD false

def effective : (k : Key) → Settings → k.Effect
  | objectPath,s => s.objectFile
  | mapName,s => s.map
  | keyLayout,s => s.keyLayout
  | duplicatePolicy,s => s.pollerConfig.policy
  | interval,s => s.pollerConfig.interval
  | iterations,s => s.pollerConfig.iterations
  | pid,s => s.pollerConfig.report.pid
  | rangeMode,s => s.pollerConfig.report.rangeMode
  | histogram,s => s.pollerConfig.report.histogram
  | percentiles,s => s.pollerConfig.report.percentiles
  | p99,s => s.pollerConfig.report.p99
  | timestamp,s => s.pollerConfig.timestamp

def given : (k : Key) → CommandLine → Option k.Given
  | objectPath,c => c.object
  | mapName,c => c.map
  | keyLayout,c => c.keyLayout
  | duplicatePolicy,c => c.duplicates
  | interval,c => c.interval
  | iterations,c => c.iterations
  | pid,c => c.pid
  | rangeMode,c => if c.raw then some .raw else none
  | histogram,c => if c.noHistogram then some false else none
  | percentiles,c => c.percentiles
  | p99,c => if c.p99 then some true else none
  | timestamp,c => if c.timestamp then some true else none

def decoder : (k : Key) → Decoder k.Given
  | objectPath | mapName => Decoder.text
  | keyLayout => Decoder.keyLayout
  | duplicatePolicy => Decoder.duplicatePolicy
  | interval | iterations => Decoder.word
  | pid => Decoder.halfWord
  | rangeMode => Decoder.rangeMode
  | histogram | p99 | timestamp => Decoder.boolean
  | percentiles => Decoder.percentiles

def isNullable : Key → Bool
  | keyLayout | duplicatePolicy => false
  | _ => true

def decode (k : Key) (key : String) : Option Value → Except Fault (Option k.Given)
  | none => .ok none
  | some v =>
    if k.isNullable then Decoder.nullable k.decoder key v else (k.decoder key v).map some

def decodeItem (items : List Value) : (k : Key) → Except Fault (Option k.Given)
  | pid => Decoder.itemOf Decoder.halfWord "output" items 0
  | rangeMode => Decoder.itemOf Decoder.rangeMode "output" items 1
  | histogram => Decoder.itemOf Decoder.boolean "output" items 2
  | percentiles => (Decoder.item Decoder.percentiles "output" items 3).map (·.getD none)
  | p99 => Decoder.itemOf Decoder.boolean "output" items 4
  | timestamp => Decoder.itemOf Decoder.boolean "output" items 5
  | _ => .ok none

def readOutput (k : Key) : Option Value → Except Fault (Option k.Given)
  | none => .ok none
  | some (.table o es) => k.decode ("output" ++ "." ++ k.name) ((Value.table o es).get? k.name)
  | some (.list _ items) => k.decodeItem items
  | some (.scalar _ s) => .error (.wrongOutput (Decoder.describeScalar s))

def label (k : Key) : String := if k.inOutput then "output" ++ "." ++ k.name else k.name

def read (k : Key) (table : Value) : Except Fault (Option k.Given) :=
  if k.inOutput then k.readOutput (table.get? "output") else k.decode k.name (table.get? k.name)

end Key

def ofGiven (g : (k : Key) → Option k.Given) : Settings where
  objectPath := g .objectPath
  mapName := g .mapName
  keyLayout := (g .keyLayout).getD .wide
  duplicatePolicy := (g .duplicatePolicy).getD .sum
  interval := g .interval
  iterations := g .iterations
  output := ⟨g .pid,g .rangeMode,g .histogram,g .percentiles,g .p99,g .timestamp⟩

theorem seconds_toNat (s : Settings) :
    s.seconds.toNat=((s.interval.map UInt64.toNat).filter (0<·)).getD 5 := by
  unfold seconds
  cases s.interval with
  | none => rfl
  | some n =>
    rcases Nat.eq_zero_or_pos n.toNat with hzero | hpos
    · obtain rfl : n=0 := UInt64.toNat_inj.mp hzero
      rfl
    · have hne : n≠0 := fun h => absurd hpos (by rw [h]; decide)
      simp [hne,hpos,Option.filter]

/-- What the command line says comes first, then what has been said before, then the default. -/
theorem effective_override (g : (k : Key) → Option k.Given) (c : CommandLine) (k : Key) :
    k.effective ((ofGiven g).override c)=k.resolve ((k.given c).or (g k)) := by
  have first {α : Type} (new old : Option α) : orElse new old=new.or old := by
    cases new <;> rfl
  have flag {α : Type} (b : Bool) (a : α) (old : Option α) :
      forced b a old=(if b then some a else none).or old := by
    cases b <;> rfl
  have choice {α : Type} (new old : Option α) (a : α) :
      new.getD (old.getD a)=(new.or old).getD a := by
    cases new <;> rfl
  cases k with
  | interval =>
    change 1000*((ofGiven g).override c).seconds.toNat=_
    rw [seconds_toNat]
    simp only [override,first]
    rfl
  | keyLayout | duplicatePolicy => exact choice _ _ _
  | objectPath | mapName | iterations | pid | percentiles =>
    simp only [Key.effective,objectFile,map,pollerConfig,reportOptions,override,first]
    rfl
  | rangeMode | histogram | p99 | timestamp =>
    simp only [Key.effective,pollerConfig,reportOptions,timestamp,override,flag]
    rfl

theorem bind_eq_ok {ε α β : Type} {x : Except ε α} {f : α → Except ε β} {b : β} :
    (x >>= f)=.ok b ↔ ∃ a,x=.ok a ∧ f a=.ok b := by
  cases x with
  | error e => simp [bind,Except.bind]
  | ok a => simp [bind,Except.bind]

theorem map_eq_ok {ε α β : Type} {x : Except ε α} {f : α → β} {b : β} :
    x.map f=.ok b ↔ ∃ a,x=.ok a ∧ f a=b := by
  cases x <;> simp [Except.map]

theorem setting_eq_decode {k : Key} (hk : k.isNullable) (table : Value) (key : String) :
    Decoder.setting k.decoder table k.name key=k.decode key (table.get? k.name) := by
  unfold Decoder.setting Decoder.entry Key.decode
  cases table.get? k.name with
  | none => rfl
  | some v =>
    simp only [hk,if_true]
    cases Decoder.nullable k.decoder key v <;> rfl

theorem entry_eq_decode {k : Key} (hk : k.isNullable=false) (table : Value) (key : String) :
    Decoder.entry k.decoder table k.name key=k.decode key (table.get? k.name) := by
  unfold Decoder.entry Key.decode
  cases table.get? k.name with
  | none => rfl
  | some v => simp [hk]

theorem Key.read_of_inOutput {k : Key} (hk : k.inOutput) (table : Value) :
    k.read table=k.readOutput (table.get? "output") := if_pos hk

/-- Unless a list describes the output, what a table says about a setting is what stands at the end
of the setting's path. -/
theorem read_eq_decode {k : Key} {table : Value} (hopen : k.inOutput → table.OpenAt "output") :
    k.read table=k.decode k.label (table.at? k.path) := by
  unfold Key.read Key.label Key.path
  cases hk : k.inOutput with
  | false => simp [Value.at?_single]
  | true =>
    have below : table.at? ["output",k.name]=(table.get? "output").bind (·.get? k.name) := by
      rw [Value.at?]
      simp only [Value.at?_single]
    simp only [if_true,below]
    cases hout : table.get? "output" with
    | none => rfl
    | some v =>
      have htable := hopen hk v hout
      cases v with
      | scalar o s => cases htable
      | list o items => cases htable
      | table o es => rfl

theorem isSome_of_decode {k : Key} {key : String} {v : Value} {g : Option k.Given}
    (hnull : v.isNull=false) (h : k.decode key (some v)=.ok g) : g.isSome := by
  have hdecode : k.decode key (some v)=(k.decoder key v).map some := by
    simp only [Key.decode]
    split
    · unfold Decoder.nullable
      split
      · cases hnull
      · rfl
    · rfl
  rw [hdecode] at h
  obtain ⟨a,-,rfl⟩ := map_eq_ok.mp h
  rfl

def outputOf (v? : Option Value) : Except Fault Output :=
  match v? with
  | some v => Decoder.output "output" v
  | none => .ok .unset

theorem outputOf_eq_ok {v? : Option Value} {o : Output} : outputOf v?=.ok o ↔
    Key.readOutput .pid v?=.ok o.pid ∧ Key.readOutput .rangeMode v?=.ok o.rangeMode ∧
    Key.readOutput .histogram v?=.ok o.histogram ∧
    Key.readOutput .percentiles v?=.ok o.percentiles ∧
    Key.readOutput .p99 v?=.ok o.p99 ∧ Key.readOutput .timestamp v?=.ok o.timestamp := by
  match v? with
  | none =>
    cases o
    simp [outputOf,Key.readOutput,Output.unset]
  | some (.scalar _ s) => simp [outputOf,Key.readOutput,Decoder.output]
  | some (.list _ items) =>
    simp only [outputOf,Decoder.output,Decoder.outputOfList,bind_eq_ok]
    constructor
    · rintro ⟨_,pid,_,mode,_,histogram,_,percentiles,_,p99,_,timestamp,h⟩
      obtain rfl := Except.ok.inj h
      exact ⟨pid,mode,histogram,map_eq_ok.mpr ⟨_,percentiles,rfl⟩,p99,timestamp⟩
    · rintro ⟨pid,mode,histogram,percentiles,p99,timestamp⟩
      obtain ⟨_,percentiles,hp⟩ := map_eq_ok.mp percentiles
      refine ⟨_,pid,_,mode,_,histogram,_,percentiles,_,p99,_,timestamp,?_⟩
      rw [hp]
      rfl
  | some (.table origin es) =>
    have same {k : Key} (hk : k.isNullable) :=
      setting_eq_decode hk (.table origin es) ("output" ++ "." ++ k.name)
    simp only [outputOf,Decoder.output,Decoder.outputOfTable,bind_eq_ok]
    constructor
    · rintro ⟨_,pid,_,mode,_,histogram,_,percentiles,_,p99,_,timestamp,h⟩
      obtain rfl := Except.ok.inj h
      exact ⟨(@same .pid rfl).symm.trans pid,(@same .rangeMode rfl).symm.trans mode,
        (@same .histogram rfl).symm.trans histogram,
        (@same .percentiles rfl).symm.trans percentiles,(@same .p99 rfl).symm.trans p99,
        (@same .timestamp rfl).symm.trans timestamp⟩
    · rintro ⟨pid,mode,histogram,percentiles,p99,timestamp⟩
      exact ⟨_,(@same .pid rfl).trans pid,_,(@same .rangeMode rfl).trans mode,_,
        (@same .histogram rfl).trans histogram,_,(@same .percentiles rfl).trans percentiles,_,
        (@same .p99 rfl).trans p99,_,(@same .timestamp rfl).trans timestamp,rfl⟩

theorem entry_output_eq_ok {table : Value} {o : Output} :
    (∃ o?,Decoder.entry Decoder.output table "output" "output"=.ok o? ∧ o?.getD .unset=o) ↔
      outputOf (table.get? "output")=.ok o := by
  unfold Decoder.entry outputOf
  cases table.get? "output" with
  | none => simp
  | some v =>
    simp only [map_eq_ok]
    constructor
    · rintro ⟨_,⟨a,ha,rfl⟩,rfl⟩
      exact ha
    · exact fun h => ⟨_,⟨o,h,rfl⟩,rfl⟩

/-- A table is read exactly if each setting in it can be read. -/
theorem ofTable_eq_ok {table : Value} {s : Settings} : ofTable table=.ok s ↔
    ∃ g : (k : Key) → Option k.Given,(∀ k : Key,k.read table=.ok (g k)) ∧ s=ofGiven g := by
  have setting {k : Key} (hk : k.isNullable) := setting_eq_decode hk table k.name
  have entry {k : Key} (hk : k.isNullable=false) := entry_eq_decode hk table k.name
  simp only [ofTable,bind_eq_ok]
  constructor
  · rintro ⟨object,hobject,map,hmap,layout,hlayout,policy,hpolicy,interval,hinterval,iterations,
      hiterations,output?,houtput,h⟩
    obtain rfl := Except.ok.inj h
    obtain ⟨pid,mode,histogram,percentiles,p99,timestamp⟩ :=
      outputOf_eq_ok.mp (entry_output_eq_ok.mp ⟨_,houtput,rfl⟩)
    let o := output?.getD .unset
    refine ⟨fun
      | .objectPath => object
      | .mapName => map
      | .keyLayout => layout
      | .duplicatePolicy => policy
      | .interval => interval
      | .iterations => iterations
      | .pid => o.pid
      | .rangeMode => o.rangeMode
      | .histogram => o.histogram
      | .percentiles => o.percentiles
      | .p99 => o.p99
      | .timestamp => o.timestamp,?_,rfl⟩
    intro k
    cases k with
    | objectPath => exact (@setting .objectPath rfl).symm.trans hobject
    | mapName => exact (@setting .mapName rfl).symm.trans hmap
    | keyLayout => exact (@entry .keyLayout rfl).symm.trans hlayout
    | duplicatePolicy => exact (@entry .duplicatePolicy rfl).symm.trans hpolicy
    | interval => exact (@setting .interval rfl).symm.trans hinterval
    | iterations => exact (@setting .iterations rfl).symm.trans hiterations
    | pid => exact pid
    | rangeMode => exact mode
    | histogram => exact histogram
    | percentiles => exact percentiles
    | p99 => exact p99
    | timestamp => exact timestamp
  · rintro ⟨g,hg,rfl⟩
    have houtput : outputOf (table.get? "output")=.ok (ofGiven g).output :=
      outputOf_eq_ok.mpr
        ⟨hg .pid,hg .rangeMode,hg .histogram,hg .percentiles,hg .p99,hg .timestamp⟩
    obtain ⟨output?,houtput,ho⟩ := entry_output_eq_ok.mpr houtput
    refine ⟨_,(@setting .objectPath rfl).trans (hg .objectPath),_,
      (@setting .mapName rfl).trans (hg .mapName),_,
      (@entry .keyLayout rfl).trans (hg .keyLayout),_,
      (@entry .duplicatePolicy rfl).trans (hg .duplicatePolicy),_,
      (@setting .interval rfl).trans (hg .interval),_,
      (@setting .iterations rfl).trans (hg .iterations),_,houtput,?_⟩
    rw [ho]
    rfl

end SchedLatency.Settings
