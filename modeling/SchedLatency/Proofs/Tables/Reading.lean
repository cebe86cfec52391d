import Mathlib.Data.List.TakeWhile
import SchedLatency.Report
import SchedLatency.Text.Blank

namespace SchedLatency.Text

section Pieces

variable {α : Type} [DecidableEq α]

/-- The pieces of a list that each end with a mark. What stands behind the last mark is a piece of
its own unless it is empty. -/
def pieces (mark : α) (xs : List α) : List (List α) :=
  let all := xs.splitOn mark
  if all.getLast?=some [] then all.dropLast else all

theorem splitOn_ended {mark : α} {ps : List (List α)} (free : ∀ p∈ps,mark∉p) :
    (ps.flatMap (·++[mark])).splitOn mark=ps++[[]] := by
  induction ps with
  | nil => rfl
  | cons p ps ih =>
    have hfirst : mark∉p := free p List.mem_cons_self
    have hrest := ih fun q hq => free q (List.mem_cons_of_mem p hq)
    rw [List.flatMap_cons,List.append_assoc,List.singleton_append,
      List.splitOn_append_cons_self_of_not_mem hfirst,hrest]
    rfl

theorem pieces_ended {mark : α} {ps : List (List α)} (free : ∀ p∈ps,mark∉p) :
    pieces mark (ps.flatMap (·++[mark]))=ps := by
  unfold pieces
  simp only [splitOn_ended free,List.getLast?_concat,List.dropLast_concat]
  rfl

end Pieces

def lines (text : String) : List String := (pieces '\n' text.toList).map String.ofList

/-- The columns of a line between marks, without the blanks around them. -/
def columns (mark : Char) (line : String) : List String :=
  (line.toList.splitOn mark).map fun cs => trim (String.ofList cs)

theorem toList_unlines (ls : List String) :
    (Report.unlines ls).toList=(ls.map String.toList).flatMap (·++['\n']) := by
  induction ls with
  | nil => rfl
  | cons l ls ih =>
    rw [Report.unlines,String.toList_append,String.toList_append,ih]
    rfl

theorem unlines_append (ls ms : List String) :
    Report.unlines (ls++ms)=Report.unlines ls++Report.unlines ms := by
  rw [←String.toList_inj,String.toList_append]
  simp only [toList_unlines,List.map_append,List.flatMap_append]

theorem lines_unlines {ls : List String} (free : ∀ l∈ls,'\n'∉l.toList) :
    lines (Report.unlines ls)=ls := by
  have hpieces : ∀ p∈ls.map String.toList,'\n'∉p := by
    intro p hp
    obtain ⟨l,hl,rfl⟩ := List.mem_map.mp hp
    exact free l hl
  unfold lines
  rw [toList_unlines,pieces_ended hpieces,List.map_map]
  simp [Function.comp_def]

theorem newline_not_mem_rule : '\n'∉Report.rule.toList := by decide

theorem columns_of_free {mark : Char} {text : String} (free : mark∉text.toList) :
    columns mark text=[trim text] := by
  unfold columns
  rw [List.splitOn_eq_singleton free,List.map_singleton,String.ofList_toList]

theorem columns_append {mark : Char} {first : String} (free : mark∉first.toList) (rest : String) :
    columns mark (first++String.singleton mark++rest)=trim first :: columns mark rest := by
  unfold columns
  simp only [String.toList_append,String.toList_singleton,List.append_assoc,List.singleton_append]
  rw [List.splitOn_append_cons_self_of_not_mem free,List.map_cons,String.ofList_toList]

theorem columns_row {mark : Char} {first : String} {rest : List String}
    (free : ∀ c∈first :: rest,mark∉c.toList) :
    columns mark (first++Report.concat (rest.map fun c => String.singleton mark++c))=
      (first :: rest).map trim := by
  induction rest generalizing first with
  | nil =>
    rw [List.map_nil,Report.concat,String.append_empty]
    exact columns_of_free (free first List.mem_cons_self)
  | cons c rest ih =>
    have hfirst := free first List.mem_cons_self
    have hrest := ih fun d hd => free d (List.mem_cons_of_mem first hd)
    rw [List.map_cons,Report.concat,String.append_assoc,←String.append_assoc,
      columns_append hfirst,hrest]
    rfl

section Trim

variable {text fill : String}

theorem trim_append_left (blank : ∀ c∈fill.toList,isBlank c=true) (text : String) :
    trim (fill++text)=trim text := by
  have hfill : fill.toList.dropWhile isBlank=[] := List.dropWhile_eq_nil_iff.mpr blank
  unfold trim
  rw [String.toList_append,List.dropWhile_append,hfill]
  rfl

theorem trimEndList_append {cs ds : List Char} (blank : ∀ c∈ds,isBlank c=true) :
    trimEndList (cs++ds)=trimEndList cs := by
  have hdrop : ds.reverse.dropWhile isBlank=[] := by
    rw [List.dropWhile_eq_nil_iff]
    intro c hc
    exact blank c (List.mem_reverse.mp hc)
  unfold trimEndList
  rw [List.reverse_append,List.dropWhile_append,hdrop]
  rfl

theorem trim_append_right (text : String) (blank : ∀ c∈fill.toList,isBlank c=true) :
    trim (text++fill)=trim text := by
  have hfill : fill.toList.dropWhile isBlank=[] := List.dropWhile_eq_nil_iff.mpr blank
  unfold trim
  rw [String.toList_append,List.dropWhile_append]
  split
  · rename_i hempty
    rw [hfill,List.isEmpty_iff.mp hempty]
  · rw [trimEndList_append blank]

theorem trim_eq_self (solid : ∀ c∈text.toList,isBlank c=false) : trim text=text := by
  have hkeep {cs : List Char} (h : ∀ c∈cs,isBlank c=false) : cs.dropWhile isBlank=cs := by
    cases cs with
    | nil => rfl
    | cons c cs =>
      rw [List.dropWhile_cons,h c List.mem_cons_self]
      rfl
  unfold trim trimEndList
  rw [hkeep solid,hkeep fun c hc => solid c (List.mem_reverse.mp hc),List.reverse_reverse,
    String.ofList_toList]

theorem isBlank_of_mem_spaces {n : Nat} {c : Char} (h : c∈(spaces n).toList) : isBlank c=true := by
  unfold spaces at h
  rw [String.toList_ofList,List.mem_replicate] at h
  rw [h.2]
  rfl

theorem isBlank_space : ∀ c∈" ".toList,isBlank c=true := by simp [isBlank]

theorem trim_alignRight (width : Nat) (text : String) : trim (alignRight width text)=trim text :=
  trim_append_left (fun _ => isBlank_of_mem_spaces) text

theorem trim_alignLeft (width : Nat) (text : String) : trim (alignLeft width text)=trim text :=
  trim_append_right text (fun _ => isBlank_of_mem_spaces)

theorem not_mem_alignRight {mark : Char} (hmark : mark ≠ ' ') (free : mark∉text.toList)
    (width : Nat) : mark∉(alignRight width text).toList := by
  rw [toList_alignRight]
  simp [hmark,free]

theorem not_mem_alignLeft {mark : Char} (hmark : mark ≠ ' ') (free : mark∉text.toList)
    (width : Nat) : mark∉(alignLeft width text).toList := by
  rw [toList_alignLeft]
  simp [hmark,free]

end Trim

end SchedLatency.Text
