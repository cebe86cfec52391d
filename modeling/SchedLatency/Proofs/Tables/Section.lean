import SchedLatency.Proofs.Tables.Figures

namespace SchedLatency

def LatencyRange.slotFrom (start : Nat) : UInt64 :=
  if start=0 then 0 else if start=Micros.max.toNat then 128 else UInt64.ofNat start.log2

theorem LatencyRange.slotFrom_start {slot : UInt64} (h : slot≤128) :
    slotFrom (start slot).toNat=slot := by
  have hle : slot.toNat≤128 := h
  rw [toNat_start]
  unfold slotFrom
  by_cases hzero : slot=0
  · rw [if_pos hzero,if_pos rfl,hzero]
  rw [if_neg hzero]
  split
  · have hpos : 0<Nat.pow 2 slot.toNat := Nat.two_pow_pos _
    have hword : slot.toNat≠0 := fun h0 => hzero (UInt64.toNat_inj.mp h0)
    have heven : Nat.pow 2 slot.toNat%2=0 := by
      obtain ⟨k,hk⟩ := Nat.exists_eq_succ_of_ne_zero hword
      rw [hk]
      exact Nat.mul_mod_left (Nat.pow 2 k) 2
    have hodd : Micros.max.toNat%2=1 := rfl
    have hlog : (Nat.pow 2 slot.toNat).log2=slot.toNat := Nat.log2_two_pow
    rw [if_neg (by omega),if_neg (by omega),hlog,UInt64.ofNat_toNat]
  · rename_i hge
    rw [if_neg (by decide),if_pos rfl]
    exact UInt64.toNat_inj.mp (Nat.le_antisymm (Nat.not_lt.mp hge) hle)

namespace RangeMode

variable {mode : RangeMode} {slot : UInt64}

/-- The slots that the labels tell apart. -/
def Tells : RangeMode → UInt64 → Prop
  | raw,_ => True
  | log2,slot => slot≤128

def slot? : RangeMode → String → Option UInt64
  | raw,label => Decimal.word? label
  | log2,label => do
    let start ← (Text.columns '-' label)[0]?
    return LatencyRange.slotFrom (← Decimal.natural? 10 start.toList)

def labelMarks : List Char := ['-','>']

theorem uses_label (mode : RangeMode) (slot : UInt64) :
    Decimal.Uses labelMarks (mode.label slot) := by
  have harrow : Decimal.Uses labelMarks "->" := .of_marks (by simp [labelMarks])
  cases mode with
  | raw => exact .digits _ _
  | log2 => exact ((Decimal.Uses.digits _ _).append harrow).append (.digits _ _)

theorem trim_label (mode : RangeMode) (slot : UInt64) :
    Text.trim (mode.label slot)=mode.label slot :=
  (uses_label mode slot).trim_eq (by simp [labelMarks,Text.isBlank])

theorem slot?_label (h : mode.Tells slot) : mode.slot? (mode.label slot)=some slot := by
  cases mode with
  | raw => exact Decimal.word?_digits slot
  | log2 =>
    let start := Decimal.digits (LatencyRange.start slot).toNat
    let stop := Decimal.digits (LatencyRange.stop slot).toNat
    have harrow : "->"=String.singleton '-' ++ ">" := rfl
    have hlabel : log2.label slot=start++String.singleton '-'++(">" ++ stop) := by
      rw [label,harrow,←String.append_assoc,String.append_assoc]
    have hfree : '-'∉start.toList := Decimal.not_mem_digits rfl _
    rw [slot?,hlabel,Text.columns_append hfree,Decimal.trim_digits]
    simp [Decimal.natural?_digits,LatencyRange.slotFrom_start h]

end RangeMode

namespace Report

def heading? (line : String) : Option EntityId := do
  let first ← (Text.columns '|' line)[0]?
  let id ← (Text.columns '=' first)[1]?
  return UInt32.ofNat (← Decimal.natural? 10 id.toList)

def bucket? (mode : RangeMode) (line : String) : Option Bucket := do
  let label ← (Text.columns ':' line)[0]?
  let count ← (Text.columns ':' line)[1]?
  return ⟨← mode.slot? label,← Decimal.word? count⟩

def entity? (mode : RangeMode) : List String → Option (EntityId×Histogram)
  | [] => none
  | heading :: rest => do
    return (← heading? heading,⟨← rest.mapM (bucket? mode)⟩)

def histograms? (mode : RangeMode) (text : String) : Option (List (EntityId×Histogram)) :=
  (Text.pieces "" ((Text.lines text).drop 2).dropLast).mapM (entity? mode)

def headingLine (mode : RangeMode) (id : EntityId) : String :=
  "Pid=" ++ number id.toNat ++ " | " ++ mode.heading ++ "  |  Count"

def entityLines (mode : RangeMode) (e : EntityId×Histogram) : List String :=
  headingLine mode e.1 :: e.2.buckets.map (bucketLine mode)

variable {mode : RangeMode} {b : Bucket} {e : EntityId×Histogram}

def entityName (id : EntityId) : String := "Pid=" ++ number id.toNat

theorem trim_entityName (id : EntityId) : Text.trim (entityName id)=entityName id := by
  have hword : Decimal.Uses ['P','i','d','='] "Pid=" := .of_marks (by simp)
  exact (hword.append (.digits _ _)).trim_eq (by simp [Text.isBlank])

theorem columns_entityName (id : EntityId) :
    Text.columns '=' (entityName id)=[Text.trim "Pid",Decimal.digits id.toNat] := by
  have hname : entityName id="Pid" ++ String.singleton '=' ++ Decimal.digits id.toNat := rfl
  have hdigits : '='∉(Decimal.digits id.toNat).toList := Decimal.not_mem_digits rfl _
  rw [hname,Text.columns_append (by decide),Text.columns_of_free hdigits,Decimal.trim_digits]

theorem headingLine_eq (mode : RangeMode) (id : EntityId) :
    headingLine mode id=entityName id++" "++String.singleton '|'++
      (" " ++ mode.heading ++ "  |  Count") := by
  have hbar : " | "=" "++String.singleton '|'++" " := rfl
  unfold headingLine entityName
  rw [hbar]
  simp only [String.append_assoc]

theorem heading?_headingLine (mode : RangeMode) (id : EntityId) :
    heading? (headingLine mode id)=some id := by
  have hdigits : '|'∉(Decimal.digits id.toNat).toList := Decimal.not_mem_digits rfl _
  have hfree : '|'∉(entityName id++" ").toList := by
    simp [entityName,number,hdigits]
  unfold heading?
  rw [headingLine_eq,Text.columns_append hfree,Text.trim_append_right _ Text.isBlank_space,
    trim_entityName]
  simp [columns_entityName,Decimal.natural?_digits]

def labelField (mode : RangeMode) (slot : UInt64) : String := Text.alignRight 20 (mode.label slot)

def countField (count : UInt64) : String := " " ++ Text.alignRight 10 (number count.toNat)

theorem bucketLine_eq (mode : RangeMode) (b : Bucket) :
    bucketLine mode b=labelField mode b.slot++String.singleton ':'++countField b.count := by
  have hcolon : ": "=String.singleton ':' ++ " " := rfl
  unfold bucketLine labelField countField
  rw [hcolon]
  simp only [String.append_assoc]

theorem not_mem_labelField {mark : Char} (hspace : mark ≠ ' ') (hdigit : mark.isDigit=false)
    (hmark : mark∉RangeMode.labelMarks) (mode : RangeMode) (slot : UInt64) :
    mark∉(labelField mode slot).toList :=
  Text.not_mem_alignRight hspace ((RangeMode.uses_label mode slot).not_mem hdigit hmark) 20

theorem not_mem_countField {mark : Char} (hspace : mark ≠ ' ') (hdigit : mark.isDigit=false)
    (count : UInt64) : mark∉(countField count).toList := by
  have hcount := Text.not_mem_alignRight hspace (Decimal.not_mem_digits hdigit count.toNat) 10
  simp [countField,number,hspace,hcount]

theorem columns_bucketLine (mode : RangeMode) (b : Bucket) :
    Text.columns ':' (bucketLine mode b)=[mode.label b.slot,Decimal.digits b.count.toNat] := by
  have hlabel : ':'∉(labelField mode b.slot).toList :=
    not_mem_labelField (by decide) rfl (by decide) mode b.slot
  have hcount : ':'∉(countField b.count).toList := not_mem_countField (by decide) rfl b.count
  rw [bucketLine_eq,Text.columns_append hlabel,Text.columns_of_free hcount]
  unfold labelField countField number
  rw [Text.trim_alignRight,RangeMode.trim_label,Text.trim_append_left Text.isBlank_space,
    Text.trim_alignRight,Decimal.trim_digits]

theorem bucket?_bucketLine (h : mode.Tells b.slot) :
    bucket? mode (bucketLine mode b)=some b := by
  unfold bucket?
  rw [columns_bucketLine]
  simp [RangeMode.slot?_label h,Decimal.word?_digits]

theorem mapM_map_eq_some {α β : Type} {read : β → Option α} {write : α → β} {xs : List α}
    (h : ∀ x∈xs,read (write x)=some x) : (xs.map write).mapM read=some xs := by
  induction xs with
  | nil => rfl
  | cons x xs ih =>
    have hfirst := h x List.mem_cons_self
    have hrest := ih fun y hy => h y (List.mem_cons_of_mem x hy)
    rw [List.map_cons,List.mapM_cons,hfirst,hrest]
    rfl

theorem entity?_entityLines (h : ∀ b∈e.2.buckets,mode.Tells b.slot) :
    entity? mode (entityLines mode e)=some e := by
  have hbuckets : (e.2.buckets.map (bucketLine mode)).mapM (bucket? mode)=some e.2.buckets :=
    mapM_map_eq_some fun b hb => bucket?_bucketLine (h b hb)
  rw [entityLines,entity?,heading?_headingLine,hbuckets]
  rfl

theorem entityText_eq (mode : RangeMode) (e : EntityId×Histogram) :
    entityText mode e=unlines (entityLines mode e++[""]) := by
  have hcount : "  |  Count\n"="  |  Count" ++ "\n" := rfl
  have hend : unlines [""]="\n" := rfl
  unfold entityText
  rw [Text.unlines_append,entityLines,unlines,headingLine,histogramText,hend,hcount]
  simp only [String.append_assoc]

theorem concat_entityText (mode : RangeMode) (es : List (EntityId×Histogram)) :
    concat (es.map (entityText mode))=unlines ((es.map (entityLines mode)).flatMap (·++[""])) := by
  induction es with
  | nil => rfl
  | cons e es ih =>
    rw [List.map_cons,concat,ih,entityText_eq,List.map_cons,List.flatMap_cons,
      Text.unlines_append (entityLines mode e++[""])]

theorem histograms_eq (s : Snapshot) (options : Options) :
    histograms s options=
      unlines ("Run Queue Latency Histogram:" :: rule ::
        ((selected s options.pid).map (entityLines options.rangeMode)).flatMap (·++[""])++
        [rule]) := by
  have htitle : "Run Queue Latency Histogram:\n"="Run Queue Latency Histogram:" ++ "\n" := rfl
  have hend : unlines [rule]=rule++"\n" := rfl
  unfold histograms
  rw [concat_entityText,List.cons_append,List.cons_append,unlines,unlines,Text.unlines_append,hend,
    htitle]
  simp only [String.append_assoc]

theorem newline_not_mem_headingLine (mode : RangeMode) (id : EntityId) :
    '\n'∉(headingLine mode id).toList := by
  have hdigits : '\n'∉(Decimal.digits id.toNat).toList := Decimal.not_mem_digits rfl id.toNat
  cases mode <;> simp [headingLine,number,RangeMode.heading,hdigits]

theorem newline_not_mem_bucketLine (mode : RangeMode) (b : Bucket) :
    '\n'∉(bucketLine mode b).toList := by
  have hlabel : '\n'∉(labelField mode b.slot).toList :=
    not_mem_labelField (by decide) rfl (by decide) mode b.slot
  have hcount : '\n'∉(countField b.count).toList := not_mem_countField (by decide) rfl b.count
  rw [bucketLine_eq]
  simp [hlabel,hcount]

theorem newline_not_mem_entityLines {l : String} (hl : l∈entityLines mode e) : '\n'∉l.toList := by
  rcases List.mem_cons.mp hl with rfl | hl
  · exact newline_not_mem_headingLine mode e.1
  · obtain ⟨b,-,rfl⟩ := List.mem_map.mp hl
    exact newline_not_mem_bucketLine mode b

theorem empty_not_mem_entityLines (mode : RangeMode) (e : EntityId×Histogram) :
    ""∉entityLines mode e := by
  intro h
  rcases List.mem_cons.mp h with h | h
  · have hlist := congrArg String.toList h
    simp [headingLine] at hlist
  · obtain ⟨b,-,hb⟩ := List.mem_map.mp h
    have hlist := congrArg String.toList hb
    simp [bucketLine] at hlist

theorem lines_histograms (s : Snapshot) (options : Options) :
    Text.lines (histograms s options)="Run Queue Latency Histogram:" :: rule ::
      ((selected s options.pid).map (entityLines options.rangeMode)).flatMap (·++[""])++[rule] := by
  have htitle : '\n'∉"Run Queue Latency Histogram:".toList := by decide
  rw [histograms_eq]
  apply Text.lines_unlines
  intro l hl
  simp only [List.cons_append,List.mem_cons,List.mem_append,List.mem_flatMap,List.mem_map,
    List.not_mem_nil,or_false] at hl
  rcases hl with rfl | rfl | ⟨_,⟨e,-,rfl⟩,hl | rfl⟩ | rfl
  · exact htitle
  · exact Text.newline_not_mem_rule
  · exact newline_not_mem_entityLines hl
  · exact List.not_mem_nil
  · exact Text.newline_not_mem_rule

theorem histograms?_histograms {s : Snapshot} {options : Options}
    (tells : ∀ e∈selected s options.pid,∀ b∈e.2.buckets,options.rangeMode.Tells b.slot) :
    histograms? options.rangeMode (histograms s options)=some (selected s options.pid) := by
  have hfree : ∀ ls∈(selected s options.pid).map (entityLines options.rangeMode),""∉ls := by
    intro ls hls
    obtain ⟨e,-,rfl⟩ := List.mem_map.mp hls
    exact empty_not_mem_entityLines _ e
  unfold histograms?
  rw [lines_histograms,List.cons_append,List.cons_append,List.drop_succ_cons,List.drop_succ_cons,
    List.drop_zero,List.dropLast_concat,Text.pieces_ended hfree]
  exact mapM_map_eq_some fun e he => entity?_entityLines (tells e he)

/-- Without a filter the section tells the histograms of a snapshot: it is read as their entities
and buckets, and only the same histograms give the same section. Labels by latency do so for slots
up to 128. -/
theorem histograms_tell {options : Options} (hpid : options.pid=none) {s t : Snapshot}
    (hs : ∀ e∈s.histograms.entries,∀ b∈e.2.buckets,options.rangeMode.Tells b.slot)
    (ht : ∀ e∈t.histograms.entries,∀ b∈e.2.buckets,options.rangeMode.Tells b.slot) :
    histograms? options.rangeMode (histograms s options)=some s.histograms.entries ∧
      (histograms s options=histograms t options ↔ s.histograms.entries=t.histograms.entries) := by
  have hread {u : Snapshot}
      (hu : ∀ e∈u.histograms.entries,∀ b∈e.2.buckets,options.rangeMode.Tells b.slot) :
      histograms? options.rangeMode (histograms u options)=some u.histograms.entries := by
    have hall : selected u options.pid=u.histograms.entries := by rw [hpid,selected_none]
    rw [←hall] at hu ⊢
    exact histograms?_histograms hu
  refine ⟨hread hs,?_,?_⟩
  · intro htext
    have hsame := hread hs
    rw [htext,hread ht] at hsame
    exact (Option.some.inj hsame).symm
  · intro hentries
    unfold histograms selected
    rw [hentries]

/-- The last two ranges that differ, and the greatest count. -/
theorem histograms_tell_saturated :
    let s : Snapshot := ⟨⟨[(7,⟨[⟨127,1⟩,⟨128,18446744073709551615⟩]⟩)],by decide⟩,0⟩
    let t : Snapshot := ⟨⟨[(7,⟨[⟨128,1⟩,⟨128,18446744073709551615⟩]⟩)],by decide⟩,0⟩
    ((∀ e∈s.histograms.entries,∀ b∈e.2.buckets,RangeMode.log2.Tells b.slot) ∧
      ∀ e∈t.histograms.entries,∀ b∈e.2.buckets,RangeMode.log2.Tells b.slot) ∧
    histograms? .log2 (histograms s .standard)=some s.histograms.entries ∧
      histograms s .standard≠histograms t .standard := by
  intro s t
  have hs : ∀ e∈s.histograms.entries,∀ b∈e.2.buckets,RangeMode.log2.Tells b.slot := by
    simp [s,RangeMode.Tells]
  have ht : ∀ e∈t.histograms.entries,∀ b∈e.2.buckets,RangeMode.log2.Tells b.slot := by
    simp [t,RangeMode.Tells]
  have hne : s.histograms.entries≠t.histograms.entries := by decide
  have hpid : Options.standard.pid=none := rfl
  obtain ⟨hread,hsame⟩ := histograms_tell hpid hs ht
  exact ⟨⟨hs,ht⟩,hread,mt hsame.mp hne⟩

/-- Ranges from slot 128 on are labelled alike. -/
example : RangeMode.log2.label 128=RangeMode.log2.label 129 := by decide +kernel

end Report
end SchedLatency
