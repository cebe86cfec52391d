import Mathlib.Data.List.Permutation
import SchedLatency.Poller.Run
import SchedLatency.Proofs.Layers.Arguments
import SchedLatency.Proofs.Layers.Frame

namespace SchedLatency.Settings

open Config
open Config.Environment (entries)
open Config.Step (leads parts)

theorem value_plain (key text : String) :
    (Environment.value key text).isTable=false ∧ (Environment.value key text).isNull=false := by
  unfold Environment.value
  dsimp only
  split
  · exact ⟨rfl,rfl⟩
  split
  · exact ⟨rfl,rfl⟩
  split
  · exact ⟨rfl,rfl⟩
  · exact ⟨rfl,rfl⟩
  · split <;> exact ⟨rfl,rfl⟩

def Spoken (layer : Layer) : Prop := ∀ e∈layer,∃ text,e.2=Environment.value e.1 text

theorem Spoken.plain {layer : Layer} (h : Spoken layer) {e : String×Value} (he : e∈layer) :
    e.2.isTable=false ∧ e.2.isNull=false := by
  obtain ⟨text,hvalue⟩ := h e he
  rw [hvalue]
  exact value_plain _ _

theorem Spoken.insert {before after : Layer} (h : Spoken (before++after)) (key text : String) :
    Spoken (before++(key,Environment.value key text) :: after) := by
  intro e he
  rcases List.mem_append.mp he with he | he
  · exact h e (List.mem_append_left _ he)
  · rcases List.mem_cons.mp he with rfl | he
    · exact ⟨text,rfl⟩
    · exact h e (List.mem_append_right _ he)

theorem values_eq_self (order : KeyOrder) {layer : Layer}
    (plain : ∀ e∈layer,e.2.isTable=false) : order.values layer=layer := by
  induction layer with
  | nil => rfl
  | cons e layer ih =>
    obtain ⟨key,v⟩ := e
    rw [KeyOrder.values,ih fun e he => plain e (List.mem_cons_of_mem _ he)]
    have first := plain (key,v) List.mem_cons_self
    cases v with
    | scalar o s => rw [KeyOrder.value]
    | list o items => rw [KeyOrder.value]
    | table o es => cases first

theorem spoken_entries (env : List (String×String)) : Spoken (entries env) :=
  fun _ => Environment.exists_text_of_mem_entries

theorem perm_entries (order : KeyOrder) (env : List (String×String)) :
    (order.ofEntries (entries env)).Perm (entries env) := by
  unfold KeyOrder.ofEntries
  rw [values_eq_self order fun e he => ((spoken_entries env).plain he).1]
  exact order.perm _

/-- A file and variables of which each can be read by itself. No variable counts positions from the
end of a list. Of the settings in the file, the variables name each as a whole if at all, and they
leave the output alone if the file describes it by a list. -/
structure Fits (file environment : Layer) : Prop where
  fileReads : ∃ s,ofLayers file []=.ok s
  variablesRead : ∃ s,ofLayers [] environment=.ok s
  forward : ∀ e∈environment,(stepsOf e.1).all Step.isForward
  whole : ∀ k : Key,(k.said file).isSome → k.WholeIn environment
  shape : ListOutput file → ∀ e∈environment,parts (stepsOf e.1) ["output"]

namespace Fits

variable {file environment : Layer}

theorem ofLayers_eq (fits : Fits file environment) (spoken : Spoken environment) :
    ofLayers file environment=.ok (ofGiven fun k => (k.said environment).or (k.said file)) := by
  obtain ⟨s,hs⟩ := fits.fileReads
  obtain ⟨s',hs'⟩ := fits.variablesRead
  exact Settings.ofLayers_eq hs hs' (fun e he => (spoken.plain he).1)
    (fun e he => (spoken.plain he).2) fits.forward fits.whole fits.shape

variable {before after : Layer} {e : String×Value} {k other : Key} (he : other.SetBy e)
  (hk : k≠other)

include he hk

theorem said_insert_file (fits : Fits (before++after) environment)
    (fits' : Fits (before++e :: after) environment)
    (shape : other.inOutput → ¬ListOutput (before++after)) :
    k.said (before++e :: after)=k.said (before++after) := by
  obtain ⟨s,hs⟩ := fits.fileReads
  obtain ⟨s',hs'⟩ := fits'.fileReads
  exact said_insert hs hs' he hk shape

theorem said_insert_variable (fits : Fits file (before++after))
    (fits' : Fits file (before++e :: after))
    (shape : other.inOutput → ¬ListOutput (before++after)) :
    k.said (before++e :: after)=k.said (before++after) := by
  obtain ⟨s,hs⟩ := fits.variablesRead
  obtain ⟨s',hs'⟩ := fits'.variablesRead
  rw [ofLayers_nil_left] at hs hs'
  exact said_insert hs hs' he hk shape

end Fits

theorem thousand_le_interval (s : Settings) : 1000 ≤ s.pollerConfig.interval := by
  have hpos := s.seconds_pos
  change 1000≤1000*s.seconds.toNat
  omega

theorem run_ne_noPeriod {p : Poller} (h : p.config.interval≠0) (t : Poller.Timeline) :
    p.run t≠.noPeriod := by
  unfold Poller.run Poller.runFor
  rw [if_neg h]
  split
  · nofun
  · split <;> nofun

/-- Settings go by precedence key by key, in whatever order tables give out their entries: the
command line, on which the variable of the object counts like a word, then the variables, then the
file, then the default. Setting one of them anywhere in a source changes no other. A command line
may be applied twice, and the poller always has a period. -/
theorem settings_by_precedence {order : KeyOrder} {file environment : Layer}
    {env : List (String×String)} (given : order.ofEntries (entries env)=environment)
    (fits : Fits file environment) :
    ∃ s,ofLayers file environment=.ok s ∧
      (∀ files held name? own,fileEntries files name?=.ok held → order.ofEntries held=file →
        allVariables files own=env → loadIn order files own name?=.ok s) ∧
      (∀ (c : CommandLine) (k : Key),k.effective (s.override c)=
        k.resolve ((k.given c).or ((k.said environment).or (k.said file)))) ∧
      (∀ words objectVariable c,CommandLine.parse words objectVariable=.ok c →
        ∃ spoken,CommandLine.parse words none=.ok spoken ∧
          c={spoken with object := spoken.object.or objectVariable}) ∧
      (∀ (c : CommandLine) (k other : Key),k≠other →
        (∀ before after e,file=before++after → other.SetBy e →
          (other.inOutput → ¬ListOutput file) → Fits (before++e :: after) environment →
          ∃ s',ofLayers (before++e :: after) environment=.ok s' ∧
            k.effective (s'.override c)=k.effective (s.override c)) ∧
        (∀ before after name text key,environment=before++after →
          Environment.key? name=some key → leads (stepsOf key) other.path →
          (other.inOutput → ¬ListOutput environment) →
          Fits file (before++(key,Environment.value key text) :: after) →
          ∃ s',ofLayers file (before++(key,Environment.value key text) :: after)=.ok s' ∧
            k.effective (s'.override c)=k.effective (s.override c)) ∧
        (∀ value c',CommandLine.Reader.store c other.argument value=.ok c' →
          k.effective (s.override c')=k.effective (s.override c))) ∧
      ∀ c : CommandLine,(s.override c).override c=s.override c ∧
        1000≤(s.override c).pollerConfig.interval ∧
        ∀ (p : Poller) (t : Poller.Timeline),p.config=(s.override c).pollerConfig →
          p.run t≠.noPeriod := by
  have spoken : Spoken environment := by
    intro e he
    rw [←given,(perm_entries order env).mem_iff] at he
    exact spoken_entries env e he
  have hs := fits.ofLayers_eq spoken
  refine ⟨_,hs,?_,effective_override _,fun _ _ _ => CommandLine.parse_object,?_,?_⟩
  · rintro files held name? own hheld rfl rfl
    rw [loadIn,hheld,given]
    exact hs
  · intro c k other hk
    refine ⟨?_,?_,?_⟩
    · rintro before after e rfl he shape fits'
      have said := fits.said_insert_file he hk fits' shape
      refine ⟨_,fits'.ofLayers_eq spoken,?_⟩
      rw [effective_override,effective_override,said]
    · rintro before after name text key rfl - hleads shape fits'
      have said := fits.said_insert_variable (.path hleads) hk fits' shape
      refine ⟨_,fits'.ofLayers_eq (spoken.insert key text),?_⟩
      rw [effective_override,effective_override,said]
    · intro value c' hstore
      have given := CommandLine.Reader.store_given hstore (Key.argument_ne hk)
      rw [effective_override,effective_override,given]
  · intro c
    refine ⟨override_override _ c,thousand_le_interval _,fun p t hp => run_ne_noPeriod ?_ t⟩
    have hinterval : 1000≤p.config.interval := hp ▸ thousand_le_interval _
    omega

theorem exists_ok_of_isSome {ε α : Type} {x : Except ε α} (h : x.toOption.isSome) :
    ∃ a,x=.ok a := by
  cases x with
  | error e => cases h
  | ok a => exact ⟨a,rfl⟩

def tableFile : Layer :=
  [("interval_secs",.scalar none (.integer 7)),("map_name",.scalar none .null),
    ("output",.table none [("pid",.scalar none (.integer 4)),
      ("range_mode",.scalar none (.text "raw"))])]

def itemVariables : List (String×String) :=
  [("RUNQLAT_INTERVAL_SECS","0"),("RUNQLAT_OUTPUT__PID","9"),("RUNQLAT_OBJECT","o"),
    ("RUNQLAT_OUTPUT__PERCENTILES[0]","99")]

/-- An item of a list may be set, since the file does not mention the list. -/
theorem fits_tableFile : Fits tableFile (entries itemVariables) := by
  have key_mem {e : String×Value} (he : e∈entries itemVariables) :
      e.1∈["interval_secs","output.pid","object","output.percentiles[0]"] := by
    have keys : (entries itemVariables).map Prod.fst=
        ["interval_secs","output.pid","object","output.percentiles[0]"] := by decide +kernel
    exact keys ▸ List.mem_map_of_mem he
  refine ⟨exists_ok_of_isSome (by decide +kernel),exists_ok_of_isSome (by decide +kernel),
    ?_,?_,?_⟩
  · intro e he
    have forward : ∀ key∈["interval_secs","output.pid","object","output.percentiles[0]"],
        (stepsOf key).all Step.isForward := by decide +kernel
    exact forward e.1 (key_mem he)
  · intro k hsaid e he
    have unsaid : Key.said .percentiles tableFile=none := by decide +kernel
    have whole : k≠.percentiles →
        ∀ key∈["interval_secs","output.pid","object","output.percentiles[0]"],
          leads (stepsOf key) k.path ∨ parts (stepsOf key) k.path := by
      cases k <;> decide +kernel
    refine whole ?_ e.1 (key_mem he)
    rintro rfl
    rw [unsaid] at hsaid
    cases hsaid
  · rintro ⟨table,origin,items,htable,hitems⟩
    have isTable : (Value.emptyTable.absorbAll tableFile).all
        (fun table => (table.get? "output").all Value.isTable) := by decide +kernel
    rw [htable,Option.all_some,hitems] at isTable
    cases isTable

theorem settings_by_precedence_of_table :
    let c : CommandLine := {CommandLine.nothing with object := some "o",noHistogram := true}
    let environment := entries itemVariables
    KeyOrder.ofEntries .asHeld (entries itemVariables)=environment ∧
      Fits tableFile environment ∧
      CommandLine.parse ["--no-histogram"] (some "o")=.ok c ∧
      ∃ s,ofLayers tableFile environment=.ok s ∧
        Key.effective .objectPath (s.override c)="o" ∧
        Key.effective .mapName (s.override c)="dist" ∧
        Key.effective .interval (s.override c)=5000 ∧
        Key.effective .pid (s.override c)=some 9 ∧
        Key.effective .rangeMode (s.override c)=.raw ∧
        Key.effective .percentiles (s.override c)=[99] ∧
        Key.effective .histogram (s.override c)=false := by
  intro c environment
  have given : KeyOrder.ofEntries .asHeld (entries itemVariables)=environment :=
    values_eq_self .asHeld fun _ he => ((spoken_entries _).plain he).1
  obtain ⟨s,hs,-,heffective,-⟩ := settings_by_precedence given fits_tableFile
  refine ⟨given,fits_tableFile,by rfl,s,hs,?_⟩
  simp only [heffective]
  decide +kernel

/-- Without more precedence fails: a variable that sets an item of the list that describes the
output, one that sets an item of a list in the file, and one that adds to a table in which a choice
is named. It fails as well if variables count from the end of a list that is longer in the file: in
no order in which they can be read by themselves do they go with the file. In each case both sources
can be read. -/
theorem precedence_fails_below_settings :
    let value (s : Scalar) : Value := .scalar none s
    let reads (file environment : Layer) : Bool := (ofLayers file environment).toOption.isSome
    let both (k : Key) (file environment : Layer) : Option k.Effect :=
      (ofLayers file environment).toOption.map fun s => k.effective (s.override .nothing)
    (let file : Layer := [("output",.list none [value (.integer 7),value (.text "raw"),
        value (.bool true),.list none [value (.integer 50)],value (.bool true),
        value (.bool false)])]
      let environment := entries [("RUNQLAT_OUTPUT__PID","9")]
      reads file [] ∧ reads [] environment ∧ Key.said .rangeMode environment=none ∧
        Key.said .rangeMode file=some .raw ∧ both .rangeMode file environment=some .log2) ∧
    (let file : Layer := [("output",.table none [("percentiles",
        .list none [value (.integer 1),value (.integer 2),value (.integer 3)])])]
      let environment := entries [("RUNQLAT_OUTPUT__PERCENTILES[0]","9")]
      reads file [] ∧ reads [] environment ∧ Key.said .percentiles environment=some [9] ∧
        both .percentiles file environment=some [9,2,3]) ∧
    (let file : Layer := [("key_layout",.table none [("wide",value (.integer 1))])]
      let environment := entries [("RUNQLAT_KEY_LAYOUT__COMPACT","x")]
      reads file [] ∧ reads [] environment ∧ Key.said .keyLayout environment=some .compact ∧
        both .keyLayout file environment=none) ∧
    (let file : Layer := [("a",.list none [value (.integer 1),value (.integer 2)])]
      let env := [("RUNQLAT_A[0]","x"),("RUNQLAT_A[-1]__B[0]","y"),("RUNQLAT_A[0]__B[-1]","z")]
      reads file [] ∧ (∃ given,given.Perm (entries env) ∧ reads [] given) ∧
        ∀ given : Layer,given.Perm (entries env) → reads [] given → reads file given=false) := by
  intro value reads both
  refine ⟨by decide +kernel,by decide +kernel,by decide +kernel,?_⟩
  intro file env
  refine ⟨by decide +kernel,⟨entries env,.refl _,by decide +kernel⟩,?_⟩
  simp only [←List.mem_permutations']
  decide +kernel

end SchedLatency.Settings
