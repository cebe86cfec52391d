import SchedLatency.Proofs.Double.Order
import SchedLatency.Proofs.Position

namespace SchedLatency

def Counter.minus? (a b : Counter) : Option Counter := if b≤a then some (a-b) else none

namespace Histogram

open Double

def lastStop? (h : Histogram) : Option Stop :=
  match h.buckets.length with
  | 0 => none
  | last+1 => h.buckets[last]?.map fun b =>
    ⟨last,Counter.clamp (h.total.toNat-b.count.toNat),h.total⟩

def stop? (h : Histogram) (reached : Counter → Bool) : Option Stop :=
  (h.firstStop? reached).or h.lastStop?

def fractionInto? (s : Stop) (threshold : Float) : Option Float :=
  if s.through=s.before then some 0
  else (Counter.minus? s.through s.before).map fun n => (threshold-s.before.toFloat)/n.toFloat

def floorIndex? (h : Histogram) (percentile : Float) : Option Nat :=
  if h.rank percentile=0 then some 0 else (h.stop? (h.rank percentile≤·)).map Stop.index

/-- The same query with nothing in place of a bucket that is not there or of a difference that is
negative: it breaks off instead. -/
def estimate? (h : Histogram) (mode : Mode) (percentile : Float) :
    Option (Except QueryError Estimate) :=
  if h.isEmpty then some (.error .emptyHistogram)
  else if !accepts percentile then some (.error (.percentileOutOfRange percentile))
  else if h.total=0 then some (.error .zeroTotal)
  else match mode with
    | .bucketFloor => do
      let index ← h.floorIndex? percentile
      let b ← h.buckets[index]?
      return .ok (.slot b.slot)
    | .interpolated => do
      let s ← h.stop? (h.threshold percentile≤·.toFloat)
      let b ← h.buckets[s.index]?
      let fraction ← fractionInto? s (h.threshold percentile)
      let start := b.slot.toFloat
      return .ok (.interpolated (start+fraction*(h.endOf s.index-start)))

variable {h : Histogram} {p : Float} {a : ℚ}

theorem lastStop?_eq (hne : h.buckets≠[]) : h.lastStop?=some h.lastStop := by
  have hpos : 0<h.buckets.length := List.length_pos_iff.mpr hne
  obtain ⟨last,hlast⟩ := Nat.exists_eq_succ_of_ne_zero hpos.ne'
  unfold lastStop? lastStop
  simp only [hlast,Nat.succ_eq_add_one,Nat.add_sub_cancel]
  rw [List.getElem?_eq_getElem (by omega)]
  rfl

theorem stop?_eq (hne : h.buckets≠[]) (reached : Counter → Bool) :
    h.stop? reached=some (h.stop reached) := by
  unfold stop? stop
  rw [lastStop?_eq hne]
  cases h.firstStop? reached <;> rfl

theorem fractionInto?_eq {s : Stop} (hle : s.before ≤ s.through) (threshold : Float) :
    fractionInto? s threshold=some (fractionInto s threshold) := by
  unfold fractionInto? fractionInto Counter.minus?
  rw [if_pos hle]
  split <;> rfl

theorem floorIndex_lt (hne : h.buckets≠[]) (p : Float) : h.floorIndex p<h.buckets.length := by
  have hpos : 0<h.buckets.length := List.length_pos_iff.mpr hne
  unfold floorIndex
  simp only
  split
  · exact hpos
  · exact stop_index_lt hne _

theorem floorIndex?_eq (hne : h.buckets≠[]) (p : Float) :
    h.floorIndex? p=some (h.floorIndex p) := by
  unfold floorIndex? floorIndex
  simp only [stop?_eq hne,Option.map_some]
  split <;> rfl

theorem getElem?_eq_slotAt {i : Nat} (hi : i<h.buckets.length) :
    ∃ b,h.buckets[i]?=some b ∧ b.slot=h.slotAt i :=
  ⟨h.buckets[i],List.getElem?_eq_getElem hi,(slotAt_eq_getElem hi).symm⟩

/-- No query breaks off. -/
theorem estimate?_eq (h : Histogram) (mode : Mode) (p : Float) :
    h.estimate? mode p=some (h.estimate mode p) := by
  unfold estimate? estimate
  by_cases hempty : h.isEmpty
  · rw [if_pos hempty,if_pos hempty]
  have hne : h.buckets≠[] := fun hnil => hempty (List.isEmpty_iff.mpr hnil)
  rw [if_neg hempty,if_neg hempty]
  split
  · rfl
  split
  · rfl
  cases mode with
  | bucketFloor =>
    obtain ⟨b,hb,hslot⟩ := getElem?_eq_slotAt (floorIndex_lt hne p)
    simp [floorIndex?_eq hne,hb,hslot]
  | interpolated =>
    obtain ⟨b,hb,hslot⟩ := getElem?_eq_slotAt (stop_index_lt hne (h.threshold p≤·.toFloat))
    have hfraction := fractionInto?_eq (h.stop_before_le (h.threshold p≤·.toFloat)) (h.threshold p)
    simp [stop?_eq hne,hb,hfraction,hslot,interpolate,crossing]

/-- Whatever the order of the buckets, an interpolated position is finite. -/
theorem isFinite_interpolate (hne : h.buckets≠[]) (ha : Denotes p a) (hle : a≤100) :
    (h.interpolate p).isFinite=true := by
  obtain ⟨i,hc,hstop⟩ := crossing_eq hne ha hle
  have ht := denotes_threshold h ha hle
  have hstart : Within (h.slotAt i).toFloat 64 :=
    (denotes_toFloat _).within (nearest_word_le _)
  have hfraction := (denotes_fractionInto hc ht).within (depth_le hc ht)
  have hwidth := ((denotes_endOf h i).within (h.endValue_le i)).sub
    (hstart.mono (by norm_num)) (by norm_num)
  have hproduct := hfraction.mul hwidth (by norm_num)
  have hsum := (hstart.mono (by norm_num)).add hproduct (by norm_num)
  unfold interpolate
  rw [hstop]
  exact hsum.isFinite

def OutOfRange (p : Float) : Prop := p.isNaN=true ∨ p<0 ∨ 100<p

theorem accepts_eq_false_iff : accepts p=false ↔ OutOfRange p := by
  have hzero : (0 : Float).isNaN=false := by rfl
  have hhundred : (100 : Float).isNaN=false := by rfl
  unfold accepts OutOfRange
  rw [Bool.and_eq_false_iff,decide_eq_false_iff_not,decide_eq_false_iff_not,not_le_iff,not_le_iff,
    hzero,hhundred]
  tauto

theorem accepts_of_not_outOfRange (hin : ¬OutOfRange p) : accepts p=true :=
  Bool.of_not_eq_false (mt accepts_eq_false_iff.mp hin)

theorem estimate_of_empty (hnil : h.buckets=[]) (p : Float) (mode : Mode) :
    h.estimate mode p=.error .emptyHistogram := by
  unfold estimate isEmpty
  rw [hnil]
  rfl

theorem estimate_of_outOfRange (hne : h.buckets≠[]) (hout : OutOfRange p) (mode : Mode) :
    h.estimate mode p=.error (.percentileOutOfRange p) := by
  have hempty : h.isEmpty=false := List.isEmpty_eq_false_iff.mpr hne
  unfold estimate
  rw [hempty,accepts_eq_false_iff.mpr hout]
  rfl

theorem estimate_of_zero (hne : h.buckets≠[]) (hin : ¬OutOfRange p)
    (hzero : ∀ b∈h.buckets,b.count=0) (mode : Mode) : h.estimate mode p=.error .zeroTotal := by
  have hempty : h.isEmpty=false := List.isEmpty_eq_false_iff.mpr hne
  unfold estimate
  rw [hempty,accepts_of_not_outOfRange hin,total_eq_zero_iff.mpr hzero]
  rfl

def Answerable (h : Histogram) (p : Float) : Prop :=
  h.buckets≠[] ∧ ¬OutOfRange p ∧ ∃ b∈h.buckets,b.count≠0

theorem estimate_of_answerable (hask : h.Answerable p) :
    (∃ s∈h.slots,h.estimate .bucketFloor p=.ok (.slot s)) ∧
      ∃ x,h.estimate .interpolated p=.ok (.interpolated x) ∧ x.isFinite=true := by
  obtain ⟨hne,hin,b,hb,hcount⟩ := hask
  have hp := accepts_of_not_outOfRange hin
  have ht : h.total≠0 := fun hzero => hcount (total_eq_zero_iff.mp hzero b hb)
  obtain ⟨a,ha,hle⟩ := denotes_of_accepts hp
  have hslot : h.slotAt (h.floorIndex p)∈h.slots := mem_slots_iff.mpr ⟨_,floorIndex_lt hne p,rfl⟩
  exact ⟨⟨_,hslot,estimate_eq_slotAt ht hp⟩,_,estimate_eq_ok ht hp .interpolated,
    isFinite_interpolate hne ha hle⟩

/-- Every query is answered or refused for the first reason that holds, in both modes alike: there
is no bucket, the percentile is out of range, nothing is counted. It never breaks off, and what is
answered is a slot of the histogram or a finite position. -/
theorem estimate_answers (h : Histogram) (p : Float) :
    (∀ mode,h.estimate? mode p=some (h.estimate mode p)) ∧
    (∀ mode,h.estimate mode p=.error .emptyHistogram ↔ h.buckets=[]) ∧
    (∀ mode q,h.estimate mode p=.error (.percentileOutOfRange q) ↔
      h.buckets≠[] ∧ OutOfRange p ∧ p=q) ∧
    (∀ mode,h.estimate mode p=.error .zeroTotal ↔
      h.buckets≠[] ∧ ¬OutOfRange p ∧ ∀ b∈h.buckets,b.count=0) ∧
    ((∃ s∈h.slots,h.estimate .bucketFloor p=.ok (.slot s)) ↔ h.Answerable p) ∧
    ((∃ x,h.estimate .interpolated p=.ok (.interpolated x) ∧ x.isFinite=true) ↔
      h.Answerable p) := by
  refine ⟨fun mode => h.estimate?_eq mode p,?_⟩
  by_cases hnil : h.buckets=[]
  · simp [estimate_of_empty hnil,Answerable,hnil]
  by_cases hout : OutOfRange p
  · simp [estimate_of_outOfRange hnil hout,Answerable,hnil,hout]
  by_cases hzero : ∀ b∈h.buckets,b.count=0
  · have hrefused := estimate_of_zero hnil hout hzero
    have hask : ¬h.Answerable p := fun ⟨_,_,b,hb,hcount⟩ => hcount (hzero b hb)
    refine ⟨?_,?_,?_,?_,?_⟩
    · simp [hrefused,hnil]
    · simp [hrefused,hout]
    · intro mode
      exact iff_of_true (hrefused mode) ⟨hnil,hout,hzero⟩
    · simp [hrefused,hask]
    · simp [hrefused,hask]
  · have hask : h.Answerable p := ⟨hnil,hout,by simpa using hzero⟩
    obtain ⟨hfloor,hposition⟩ := estimate_of_answerable hask
    have hok := estimate_eq_ok (mt total_eq_zero_iff.mp hzero) (accepts_of_not_outOfRange hout)
    refine ⟨?_,?_,?_,iff_of_true hfloor hask,iff_of_true hposition hask⟩
    · simp [hok,hnil]
    · simp [hok,hout]
    · simp [hok,hzero]

end Histogram
end SchedLatency
