import SchedLatency.Proofs.Buckets
import SchedLatency.Proofs.Collecting
import SchedLatency.Proofs.Position
import SchedLatency.Proofs.Tables.Figures

namespace SchedLatency

def Snapshot.Built (s : Snapshot) : Prop :=
  ∃ order policy,(∃ records,ofRecordsIn order policy records=s) ∨
    ∃ pass,(buildIn order policy pass).outcome=.ok s

theorem Snapshot.Built.sorted {s : Snapshot} (hs : s.Built) {id : EntityId} {h : Histogram}
    (hget : s.get? id=some h) : h.Sorted := by
  obtain ⟨order,policy,⟨records,rfl⟩ | ⟨pass,hpass⟩⟩ := hs
  · exact sorted_ofRecordsIn hget
  · rw [outcome_buildIn] at hpass
    cases hloss : pass.failure.or (firstLoss? pass.records) with
    | some e =>
      rw [hloss] at hpass
      contradiction
    | none =>
      rw [hloss] at hpass
      cases hpass
      exact sorted_ofRecordsIn hget

theorem Histogram.refused_or (h : Histogram) (mode : Mode) (p : Float) :
    (∃ e,h.estimate mode p=.error e) ∨ h.total≠0 ∧ accepts p := by
  unfold estimate
  split_ifs with hempty hrange ht
  · exact .inl ⟨_,rfl⟩
  · exact .inl ⟨_,rfl⟩
  · exact .inl ⟨_,rfl⟩
  · exact .inr ⟨ht,by simpa using hrange⟩

namespace Report

variable {s : Snapshot} {pid : Option EntityId} {h : Histogram}

theorem uses_cell (r : Except QueryError Estimate) : Decimal.Uses Decimal.doubleMarks (cell r) := by
  match r with
  | .ok (.slot slot) => exact .digits _ _
  | .ok (.interpolated x) => exact Decimal.uses_fixed 0 x
  | .error e => exact Decimal.uses_signText true

def estimateField (r : Except QueryError Estimate) : String := "    " ++ Text.alignRight 10 (cell r)

theorem estimateCell_eq (r : Except QueryError Estimate) :
    estimateCell r=String.singleton '|'++estimateField r := by
  have hmark : "|    "=String.singleton '|' ++ "    " := rfl
  unfold estimateCell estimateField
  rw [hmark,String.append_assoc]

theorem trim_estimateField (r : Except QueryError Estimate) :
    Text.trim (estimateField r)=cell r := by
  have hfill : "    "=Text.spaces 4 := rfl
  unfold estimateField
  rw [hfill,Text.trim_append_left fun _ => Text.isBlank_of_mem_spaces,Text.trim_alignRight,
    (uses_cell r).trim_eq Decimal.doubleMarks_solid]

theorem not_mem_estimateField {mark : Char} (hspace : mark ≠ ' ') (hdigit : mark.isDigit=false)
    (hmark : mark∉Decimal.doubleMarks) (r : Except QueryError Estimate) :
    mark∉(estimateField r).toList := by
  have hcell := Text.not_mem_alignRight hspace ((uses_cell r).not_mem hdigit hmark) 10
  simp [estimateField,hspace,hcell]

theorem trim_entityCell (id : EntityId) :
    Text.trim (entityCell id)=Decimal.digits id.toNat := by
  unfold entityCell number
  rw [Text.trim_alignLeft,Decimal.trim_digits]

theorem not_mem_entityCell {mark : Char} (hspace : mark ≠ ' ') (hdigit : mark.isDigit=false)
    (id : EntityId) : mark∉(entityCell id).toList :=
  Text.not_mem_alignLeft hspace (Decimal.not_mem_digits hdigit _) 8

theorem columns_percentileRow (ps : List Float) (e : EntityId×Histogram) :
    Text.columns '|' (percentileRow ps e)=
      Decimal.digits e.1.toNat :: ps.map fun p => cell (e.2.estimate .bucketFloor p) := by
  let field (p : Float) := estimateField (e.2.estimate .bucketFloor p)
  have hrow : percentileRow ps e=
      entityCell e.1++concat ((ps.map field).map fun c => String.singleton '|'++c) := by
    unfold percentileRow
    rw [List.map_map]
    rfl
  rw [hrow,Text.columns_row,List.map_cons,List.map_map,trim_entityCell]
  · simp only [Function.comp_def,field,trim_estimateField]
  · intro c hc
    rcases List.mem_cons.mp hc with rfl | hc
    · exact not_mem_entityCell (by decide) rfl e.1
    · obtain ⟨p,-,rfl⟩ := List.mem_map.mp hc
      exact not_mem_estimateField (by decide) rfl (by decide) _

theorem columns_p99Row (e : EntityId×Histogram) :
    Text.columns '|' (p99Row e)=
      [Decimal.digits e.1.toNat,cell (e.2.estimate .interpolated p99)] := by
  let r := e.2.estimate .interpolated p99
  have hrow : p99Row e=entityCell e.1++String.singleton '|'++(estimateField r++" ") := by
    unfold p99Row
    rw [estimateCell_eq]
    simp only [String.append_assoc,r]
  have hentity : '|'∉(entityCell e.1).toList := not_mem_entityCell (by decide) rfl e.1
  have hfield : '|'∉(estimateField r++" ").toList := by
    have hr : '|'∉(estimateField r).toList :=
      not_mem_estimateField (by decide) rfl (by decide) r
    simp [hr]
  rw [hrow,Text.columns_append hentity,Text.columns_of_free hfield,trim_entityCell,
    Text.trim_append_right _ Text.isBlank_space,trim_estimateField]

example : Text.columns '|' (percentileRow [50,0/0] (7,⟨[⟨3,5⟩,⟨9,1⟩]⟩))=["7","3","-"] := by
  rw [columns_percentileRow]
  decide +kernel

theorem lines_table {title heading : String} {rows : List String}
    (free : ∀ l∈title :: heading :: rows,'\n'∉l.toList) :
    Text.lines (title ++ "\n" ++ heading ++ "\n" ++ rule ++ "\n" ++ unlines rows++rule ++ "\n")=
      title :: heading :: rule :: rows++[rule] := by
  have htext : title ++ "\n" ++ heading ++ "\n" ++ rule ++ "\n" ++ unlines rows++rule ++ "\n"=
      unlines (title :: heading :: rule :: rows++[rule]) := by
    have hend : unlines [rule]=rule ++ "\n" := rfl
    rw [List.cons_append,List.cons_append,List.cons_append,unlines,unlines,unlines,
      Text.unlines_append,hend]
    simp only [String.append_assoc]
  rw [htext]
  apply Text.lines_unlines
  intro l hl
  simp only [List.cons_append,List.mem_cons,List.mem_append,List.not_mem_nil,or_false] at hl
  rcases hl with rfl | rfl | rfl | hl | rfl
  · exact free l List.mem_cons_self
  · exact free l (List.mem_cons_of_mem _ List.mem_cons_self)
  · exact Text.newline_not_mem_rule
  · exact free l (List.mem_cons_of_mem _ (List.mem_cons_of_mem _ hl))
  · exact Text.newline_not_mem_rule

/-- A table with one row between its rules for each entity that a filter selects, in ascending
order, whose columns relate to the entity and its histogram. -/
def Tabulates (s : Snapshot) (pid : Option EntityId)
    (row : EntityId → Histogram → List String → Prop) (text : String) : Prop :=
  ∃ title heading rows es,Text.lines text=title :: heading :: rule :: rows++[rule] ∧
    (es.map Prod.fst).Pairwise (·<·) ∧
    (∀ id h,(id,h)∈es ↔ s.get? id=some h ∧ ∀ p∈pid,id=p) ∧
    List.Forall₂ (fun e line => row e.1 e.2 (Text.columns '|' line)) es rows

/-- A dash exactly for a query without an answer, else the slot that answers it. -/
structure ShowsSlot (h : Histogram) (p : Float) (text : String) : Prop where
  dash : text="-" ↔ ∃ e,h.estimate .bucketFloor p=.error e
  slot : ∀ x,h.estimate .bucketFloor p=.ok x →
    ∃ slot,x=.slot slot ∧ text=Decimal.digits slot.toNat

/-- A dash exactly if nothing is counted, else digits. -/
structure ShowsPosition (h : Histogram) (text : String) : Prop where
  dash : text="-" ↔ ∀ b∈h.buckets,b.count=0
  digits : text≠"-" → text≠"" ∧ ∀ c∈text.toList,c.isDigit=true

theorem showsSlot_cell (h : Histogram) (p : Float) :
    ShowsSlot h p (cell (h.estimate .bucketFloor p)) := by
  rcases h.refused_or .bucketFloor p with ⟨e,he⟩ | ⟨ht,hp⟩
  · rw [he]
    exact ⟨iff_of_true rfl ⟨e,he⟩,fun x hx => absurd (he.symm.trans hx) nofun⟩
  · have hslot := Histogram.estimate_eq_slotAt ht hp
    rw [hslot]
    refine ⟨iff_of_false (Decimal.digits_ne_dash _) ?_,?_⟩
    · rintro ⟨e,he⟩
      exact absurd (hslot.symm.trans he) nofun
    · intro x hx
      exact ⟨_,(Except.ok.inj (hslot.symm.trans hx)).symm,rfl⟩

theorem showsPosition_cell (hs : h.Sorted) :
    ShowsPosition h (cell (h.estimate .interpolated p99)) := by
  have hp : Histogram.accepts p99 := by rfl
  by_cases ht : h.total=0
  · have hcounts := Histogram.total_eq_zero_iff.mp ht
    have hdash : cell (h.estimate .interpolated p99)="-" := by
      obtain ⟨e,he⟩ := (h.refused_or .interpolated p99).resolve_right fun hok => hok.1 ht
      rw [he]
      rfl
    exact ⟨iff_of_true hdash hcounts,fun hne => absurd hdash hne⟩
  · obtain ⟨a,ha,hle⟩ := Histogram.denotes_of_accepts hp
    obtain ⟨i,hc,hstop⟩ := Histogram.crossing_eq (Histogram.buckets_ne_nil ht) ha hle
    have hx := Histogram.unsigned_interpolate hs hc hstop (Histogram.denotes_threshold h ha hle)
    obtain ⟨n,hn⟩ := hx.fixed_zero
    have hcell : cell (h.estimate .interpolated p99)=Decimal.digits n := by
      rw [Histogram.estimate_eq_ok ht hp]
      exact hn
    rw [hcell]
    refine ⟨iff_of_false (Decimal.digits_ne_dash n) (mt Histogram.total_eq_zero_iff.mpr ht),?_⟩
    intro _
    exact ⟨Decimal.digits_ne_empty n,fun c hc => Decimal.isDigit_of_mem_digits hc⟩

theorem mem_selected {id : EntityId} :
    (id,h)∈selected s pid ↔ s.get? id=some h ∧ ∀ p∈pid,id=p := by
  have hget : s.get? id=some h ↔ (id,h)∈s.histograms.entries :=
    s.histograms.get?_eq_some_iff_mem id h
  unfold selected
  rw [List.mem_filter,hget]
  apply and_congr_right
  intro _
  cases pid with
  | none => simp [passes]
  | some p =>
    rw [passes,beq_iff_eq]
    simp [eq_comm]

theorem tabulates_selected {title heading text : String} {line : EntityId×Histogram → String}
    {row : EntityId → Histogram → List String → Prop}
    (hlines : Text.lines text=title :: heading :: rule :: (selected s pid).map line++[rule])
    (hrow : ∀ id h,s.get? id=some h → row id h (Text.columns '|' (line (id,h)))) :
    Tabulates s pid row text := by
  refine ⟨title,heading,_,selected s pid,hlines,?_,fun id h => mem_selected,?_⟩
  · exact (s.histograms.filterIds (passes pid)).ascending
  · rw [List.forall₂_map_right_iff,List.forall₂_same]
    intro e he
    exact hrow e.1 e.2 (mem_selected.mp he).1

theorem not_mem_concat {mark : Char} {ts : List String} (free : ∀ t∈ts,mark∉t.toList) :
    mark∉(concat ts).toList := by
  induction ts with
  | nil => exact List.not_mem_nil
  | cons t ts ih =>
    rw [concat,String.toList_append,List.mem_append,not_or]
    exact ⟨free t List.mem_cons_self,ih fun u hu => free u (List.mem_cons_of_mem t hu)⟩

theorem newline_not_mem_entityCell (id : EntityId) : '\n'∉(entityCell id).toList :=
  not_mem_entityCell (by decide) rfl id

theorem newline_not_mem_estimateCell (r : Except QueryError Estimate) :
    '\n'∉(estimateCell r).toList := by
  have hfield : '\n'∉(estimateField r).toList :=
    not_mem_estimateField (by decide) rfl (by decide) r
  rw [estimateCell_eq]
  simp [hfield]

theorem newline_not_mem_percentileHeading (p : Float) :
    '\n'∉(percentileHeading p).toList := by
  have hp : '\n'∉(Decimal.fixed 2 p).toList :=
    (Decimal.uses_fixed 2 p).not_mem rfl (by decide)
  simp [percentileHeading,hp]

theorem lines_percentileTable (s : Snapshot) (ps : List Float) (pid : Option EntityId) :
    Text.lines (percentileTable s ps pid)=
      "Run Queue Latency -- Percentiles" :: (" Pid    " ++ concat (ps.map percentileHeading)) ::
        rule :: (selected s pid).map (percentileRow ps)++[rule] := by
  have htitle : "Run Queue Latency -- Percentiles\n"=
      "Run Queue Latency -- Percentiles" ++ "\n" := rfl
  have hheading : '\n'∉(concat (ps.map percentileHeading)).toList := by
    apply not_mem_concat
    intro t ht
    obtain ⟨p,-,rfl⟩ := List.mem_map.mp ht
    exact newline_not_mem_percentileHeading p
  have htext : percentileTable s ps pid="Run Queue Latency -- Percentiles" ++ "\n" ++
      (" Pid    " ++ concat (ps.map percentileHeading)) ++ "\n" ++ rule ++ "\n" ++
      unlines ((selected s pid).map (percentileRow ps))++rule ++ "\n" := by
    unfold percentileTable
    rw [htitle]
    simp only [String.append_assoc]
  rw [htext]
  apply lines_table
  intro l hl
  rw [List.mem_cons,List.mem_cons,List.mem_map] at hl
  rcases hl with rfl | rfl | ⟨e,-,rfl⟩
  · simp
  · simp [hheading]
  · rw [percentileRow,String.toList_append,List.mem_append,not_or]
    refine ⟨newline_not_mem_entityCell e.1,not_mem_concat ?_⟩
    intro t ht
    obtain ⟨p,-,rfl⟩ := List.mem_map.mp ht
    exact newline_not_mem_estimateCell _

theorem lines_p99Table (s : Snapshot) (pid : Option EntityId) :
    Text.lines (p99Table s pid)="Run Queue Latency P99:" :: " Pid    | P99 Latency (us) " ::
      rule :: (selected s pid).map p99Row++[rule] := by
  have htitle : "Run Queue Latency P99:\n"="Run Queue Latency P99:" ++ "\n" := rfl
  have hheading : " Pid    | P99 Latency (us) \n"=" Pid    | P99 Latency (us) " ++ "\n" := rfl
  have htext : p99Table s pid="Run Queue Latency P99:" ++ "\n" ++ " Pid    | P99 Latency (us) " ++
      "\n" ++ rule ++ "\n" ++ unlines ((selected s pid).map p99Row)++rule ++ "\n" := by
    unfold p99Table
    rw [htitle,hheading]
    simp only [String.append_assoc]
  rw [htext]
  apply lines_table
  intro l hl
  rw [List.mem_cons,List.mem_cons,List.mem_map] at hl
  rcases hl with rfl | rfl | ⟨e,-,rfl⟩
  · simp
  · simp
  · have hentity := newline_not_mem_entityCell e.1
    have hcell := newline_not_mem_estimateCell (e.2.estimate .interpolated p99)
    simp [p99Row,hentity,hcell]

def SlotRow (ps : List Float) (id : EntityId) (h : Histogram) (columns : List String) : Prop :=
  ∃ cells,columns=Decimal.digits id.toNat :: cells ∧ List.Forall₂ (ShowsSlot h) ps cells

def PositionRow (id : EntityId) (h : Histogram) (columns : List String) : Prop :=
  ∃ text,columns=[Decimal.digits id.toNat,text] ∧ ShowsPosition h text

/-- The tables of a built snapshot have one row for each selected entity, in ascending order, and
never show a latency where there is no answer. -/
theorem tables_tell (hs : s.Built) (ps : List Float) (pid : Option EntityId) :
    Tabulates s pid (SlotRow ps) (percentileTable s ps pid) ∧
      Tabulates s pid PositionRow (p99Table s pid) := by
  constructor
  · apply tabulates_selected (lines_percentileTable s ps pid)
    intro id h _
    refine ⟨_,columns_percentileRow ps (id,h),?_⟩
    rw [List.forall₂_map_right_iff,List.forall₂_same]
    intro p _
    exact showsSlot_cell h p
  · apply tabulates_selected (lines_p99Table s pid)
    intro id h hget
    exact ⟨_,columns_p99Row (id,h),showsPosition_cell (hs.sorted hget)⟩

/-- An entity without observations beside one with some, and a percentile that is no number. -/
theorem tables_tell_mixed :
    let s := Snapshot.ofRecords .sum [.sample ⟨7,3,5⟩,.sample ⟨3,2,0⟩,.sample ⟨7,9,1⟩]
    s.Built ∧ Tabulates s none (SlotRow [50,0/0]) (percentileTable s [50,0/0] none) ∧
      Tabulates s none PositionRow (p99Table s none) := by
  intro s
  have hs : s.Built := ⟨_,_,.inl ⟨_,rfl⟩⟩
  exact ⟨hs,tables_tell hs [50,0/0] none⟩

end Report
end SchedLatency
