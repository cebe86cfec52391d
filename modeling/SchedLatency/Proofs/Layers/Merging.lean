import SchedLatency.Proofs.Layers.Keys
import SchedLatency.Settings.Loading

namespace SchedLatency.Settings

open Config
open Config.Value (emptyTable)
open Config.Step (leads parts)

/-- A source, in the order in which its keys are set. -/
abbrev Layer := List (String×Value)

/-- What a source by itself says about a setting. -/
def Key.said (k : Key) (layer : Layer) : Option k.Given :=
  ((emptyTable.absorbAll layer).bind fun table => (k.read table).toOption).join

theorem Key.at?_emptyTable (k : Key) : emptyTable.at? k.path=none := by
  unfold Key.path
  split <;> rfl

/-- Do the keys of a source name the setting as a whole, if at all? -/
def Key.WholeIn (k : Key) (layer : Layer) : Prop :=
  ∀ e∈layer,leads (stepsOf e.1) k.path ∨ parts (stepsOf e.1) k.path

def ListOutput (layer : Layer) : Prop :=
  ∃ table origin items,emptyTable.absorbAll layer=some table ∧
    table.get? "output"=some (.list origin items)

theorem ofLayers_nil_left (layer : Layer) : ofLayers [] layer=ofLayers layer [] := by
  have same : layers [] layer=layers layer [] := by
    change emptyTable.absorbAll layer=(emptyTable.absorbAll layer).bind some
    rw [Option.bind_fun_some]
  rw [ofLayers,ofLayers,same]

theorem exists_table {layer : Layer} {s : Settings} (h : ofLayers layer []=.ok s) :
    ∃ table,emptyTable.absorbAll layer=some table ∧ (∀ k : Key,k.read table=.ok (k.said layer)) ∧
      s=ofGiven fun k => k.said layer := by
  unfold ofLayers layers at h
  cases htable : emptyTable.absorbAll layer with
  | none =>
    rw [htable] at h
    cases h
  | some table =>
    rw [htable] at h
    change (ofTable table).mapError LoadError.fault=.ok s at h
    cases hs : ofTable table with
    | error fault =>
      rw [hs] at h
      cases h
    | ok s' =>
      rw [hs] at h
      obtain rfl := Except.ok.inj h
      obtain ⟨g,hg,rfl⟩ := ofTable_eq_ok.mp hs
      have hsaid (k : Key) : k.said layer=g k := by
        rw [Key.said,htable,Option.bind_some,hg k]
        rfl
      refine ⟨table,rfl,fun k => ?_,?_⟩
      · rw [hg k,hsaid k]
      · rw [funext hsaid]

theorem openAt_output {layer : Layer} {table : Value} (hlist : ¬ListOutput layer)
    (htable : emptyTable.absorbAll layer=some table)
    (hread : ∀ k : Key,k.read table=.ok (k.said layer)) : table.OpenAt "output" := by
  intro v hv
  cases v with
  | scalar o s =>
    have h := hread .pid
    change Key.readOutput .pid (table.get? "output")=_ at h
    rw [hv] at h
    cases h
  | list o items => exact absurd ⟨table,o,items,htable,hv⟩ hlist
  | table o es => rfl

theorem openAt_absorbAll {layer : Layer} {k : Key} (hk : k.inOutput) (whole : k.WholeIn layer)
    {root r : Value} (hopen : root.OpenAt "output") (hr : root.absorbAll layer=some r) :
    r.OpenAt "output" := by
  refine Value.absorbAll_keeps (·.OpenAt "output") ?_ hopen hr
  intro e he v w hv hw
  have hpath : k.path=["output",k.name] := if_pos hk
  rw [Key.WholeIn,hpath] at whole
  exact Value.openAt_assign (whole e he) hv hw

theorem not_null_absorbAll {layer : Layer} {k : Key} (plain : ∀ e∈layer,e.2.isTable=false)
    (set : ∀ e∈layer,e.2.isNull=false) (whole : k.WholeIn layer) {r : Value}
    (hr : emptyTable.absorbAll layer=some r) {v : Value} (hv : r.at? k.path=some v) :
    v.isNull=false := by
  have hset : ∀ v∈r.at? k.path,v.isNull=false := by
    refine Value.absorbAll_keeps (fun r => ∀ v∈r.at? k.path,v.isNull=false) ?_ ?_ hr
    · intro e he v w hv hw
      rcases whole e he with hleads | hparts
      · rw [Value.at?_assign_of_leads hleads (plain e he) hw]
        intro u hu
        obtain rfl := Option.some.inj hu
        exact set e he
      · rw [Value.at?_assign_of_parts hparts hw]
        exact hv
    · rw [k.at?_emptyTable]
      nofun
  exact hset v hv

theorem get?_output_absorbAll {layer : Layer} (h : ∀ e∈layer,parts (stepsOf e.1) ["output"])
    {root r : Value} (hr : root.absorbAll layer=some r) : r.get? "output"=root.get? "output" := by
  refine Value.absorbAll_keeps (fun v => v.get? "output"=root.get? "output") ?_ rfl hr
  intro e he v w hv hw
  rw [←Value.at?_single,Value.at?_assign_of_parts (h e he) hw,Value.at?_single,hv]

theorem blank_of_read {k : Key} {table : Value} (hopen : k.inOutput → table.OpenAt "output")
    (h : k.read table=.ok none) : Value.Blank (table.at? k.path) := by
  intro v hv
  rw [read_eq_decode hopen,Option.mem_def.mp hv] at h
  rw [←Bool.not_eq_false]
  intro hnull
  cases isSome_of_decode hnull h

section

variable {file overrides : Layer} {below alone merged : Value} {k : Key}
  (readBelow : k.read below=.ok (k.said file)) (readAlone : k.read alone=.ok (k.said overrides))
  (halone : emptyTable.absorbAll overrides=some alone)
  (hmerged : below.absorbAll overrides=some merged) (plain : ∀ e∈overrides,e.2.isTable=false)

include readBelow readAlone halone hmerged

theorem read_of_parts (hk : k.inOutput) (hparts : ∀ e∈overrides,parts (stepsOf e.1) ["output"]) :
    k.read merged=.ok ((k.said overrides).or (k.said file)) := by
  rw [Key.read_of_inOutput hk,get?_output_absorbAll hparts halone] at readAlone
  rw [Key.read_of_inOutput hk] at readBelow
  have hnone : none=k.said overrides := Except.ok.inj readAlone
  rw [Key.read_of_inOutput hk,get?_output_absorbAll hparts hmerged,readBelow,←hnone,
    Option.none_or]

include plain

theorem read_of_whole (hopen : k.inOutput → below.OpenAt "output")
    (set : ∀ e∈overrides,e.2.isNull=false) (whole : k.WholeIn overrides) :
    k.read merged=.ok ((k.said overrides).or (k.said file)) := by
  have kept : merged.at? k.path=(alone.at? k.path).or (below.at? k.path) := by
    refine Value.at?_absorbAll plain whole ?_ hmerged halone
    rw [k.at?_emptyTable,Option.none_or]
  rw [read_eq_decode hopen] at readBelow
  rw [read_eq_decode fun hk => openAt_absorbAll hk whole (Value.openAt_emptyTable _) halone]
    at readAlone
  rw [read_eq_decode fun hk => openAt_absorbAll hk whole (hopen hk) hmerged,kept]
  cases hv : alone.at? k.path with
  | none =>
    rw [hv] at readAlone
    have hnone : none=k.said overrides := Except.ok.inj readAlone
    rw [←hnone,Option.none_or,Option.none_or,readBelow]
  | some v =>
    rw [hv] at readAlone
    have hset := isSome_of_decode (not_null_absorbAll plain set whole halone hv) readAlone
    obtain ⟨a,ha⟩ := Option.isSome_iff_exists.mp hset
    rw [Option.some_or,readAlone,ha,Option.some_or]

/-- About a setting of which the first source says nothing, both sources say what the second one
says. -/
theorem read_of_unsaid (hopen : k.inOutput → below.OpenAt "output") (hnone : k.said file=none) :
    k.read merged=.ok ((k.said overrides).or (k.said file)) := by
  rw [hnone] at readBelow
  rw [hnone,Option.or_none,←readAlone]
  have shapes : k.inOutput ∧ merged.get? "output"=alone.get? "output" ∨
      (k.inOutput → merged.OpenAt "output") ∧ (k.inOutput → alone.OpenAt "output") := by
    by_cases hk : k.inOutput
    · have hstart := Value.openAt_emptyTable "output"
      rcases Value.get?_absorbAll_congr plain (.inr ⟨hopen hk,hstart⟩) hmerged halone with
        same | ⟨hmergedOpen,haloneOpen⟩
      · exact .inl ⟨hk,same⟩
      · exact .inr ⟨fun _ => hmergedOpen,fun _ => haloneOpen⟩
    · exact .inr ⟨(absurd · hk),(absurd · hk)⟩
  rcases shapes with ⟨hk,same⟩ | ⟨hmergedOpen,haloneOpen⟩
  · rw [Key.read_of_inOutput hk,Key.read_of_inOutput hk,same]
  · have blank := blank_of_read hopen readBelow
    have blankEmpty : Value.Blank (emptyTable.at? k.path) := by
      rw [k.at?_emptyTable]
      nofun
    rw [read_eq_decode hmergedOpen,read_eq_decode haloneOpen]
    rcases Value.at?_absorbAll_of_blank plain blank blankEmpty hmerged halone with
      same | ⟨keptBelow,keptEmpty⟩
    · rw [same]
    · rw [read_eq_decode hopen] at readBelow
      rw [keptBelow,keptEmpty,readBelow,k.at?_emptyTable]
      rfl

end

theorem ofLayers_eq {file overrides : Layer} {s s' : Settings} (hfile : ofLayers file []=.ok s)
    (hoverrides : ofLayers [] overrides=.ok s') (plain : ∀ e∈overrides,e.2.isTable=false)
    (set : ∀ e∈overrides,e.2.isNull=false)
    (forward : ∀ e∈overrides,(stepsOf e.1).all Step.isForward)
    (whole : ∀ k : Key,(k.said file).isSome → k.WholeIn overrides)
    (shape : ListOutput file → ∀ e∈overrides,parts (stepsOf e.1) ["output"]) :
    ofLayers file overrides=.ok (ofGiven fun k => (k.said overrides).or (k.said file)) := by
  rw [ofLayers_nil_left] at hoverrides
  obtain ⟨below,hbelow,readBelow,-⟩ := exists_table hfile
  obtain ⟨alone,halone,readAlone,-⟩ := exists_table hoverrides
  obtain ⟨merged,hmerged⟩ := Value.absorbAll_isSome forward halone below
  have hread : ∀ k : Key,k.read merged=.ok ((k.said overrides).or (k.said file)) := by
    intro k
    by_cases hlist : k.inOutput ∧ ListOutput file
    · exact read_of_parts (readBelow k) (readAlone k) halone hmerged hlist.1 (shape hlist.2)
    · have hopen (hk : k.inOutput) : below.OpenAt "output" :=
        openAt_output (fun h => hlist ⟨hk,h⟩) hbelow readBelow
      cases hsaid : k.said file with
      | none =>
        rw [←hsaid]
        exact read_of_unsaid (readBelow k) (readAlone k) halone hmerged plain hopen hsaid
      | some a =>
        have hwhole := whole k (by rw [hsaid]; rfl)
        rw [←hsaid]
        exact read_of_whole (readBelow k) (readAlone k) halone hmerged plain hopen set hwhole
  have hlayers : layers file overrides=some merged := by
    unfold layers
    rw [hbelow]
    exact hmerged
  rw [ofLayers,hlayers]
  simp only [ofTable_eq_ok.mpr ⟨_,hread,rfl⟩]
  rfl

end SchedLatency.Settings
