import SchedLatency.Proofs.Walk

namespace SchedLatency.Histogram

open Bucket (observations)

/-- Buckets in ascending order of their slots. -/
def Sorted (h : Histogram) : Prop := h.buckets.Pairwise fun a b => a.slot≤b.slot

def slots (h : Histogram) : List UInt64 := h.buckets.map Bucket.slot

/-- Observations in slots up to `v`, however many. -/
def upTo (h : Histogram) (v : UInt64) : Nat := observations (h.buckets.filter (·.slot≤v))

theorem slotAt_eq_getElem {h : Histogram} {i : Nat} (hi : i<h.buckets.length) :
    h.slotAt i=h.buckets[i].slot := by
  simp [slotAt,hi]

theorem mem_slots_iff {h : Histogram} {v : UInt64} :
    v∈h.slots ↔ ∃ i<h.buckets.length,h.slotAt i=v := by
  unfold slots
  rw [List.mem_map]
  constructor
  · rintro ⟨b,hb,rfl⟩
    obtain ⟨i,hi,rfl⟩ := List.getElem_of_mem hb
    exact ⟨i,hi,slotAt_eq_getElem hi⟩
  · rintro ⟨i,hi,rfl⟩
    exact ⟨h.buckets[i],List.getElem_mem hi,(slotAt_eq_getElem hi).symm⟩

theorem slotAt_mono {h : Histogram} (hs : h.Sorted) {i j : Nat} (hij : i≤j)
    (hj : j<h.buckets.length) : h.slotAt i≤h.slotAt j := by
  rw [slotAt_eq_getElem (by omega),slotAt_eq_getElem hj]
  rcases Nat.eq_or_lt_of_le hij with rfl | hlt
  · exact UInt64.le_refl _
  · exact List.pairwise_iff_getElem.mp hs i j (by omega) hj hlt

theorem upTo_split (h : Histogram) (v : UInt64) (i : Nat) :
    h.upTo v=observations ((h.buckets.take i).filter (·.slot≤v))+
      observations ((h.buckets.drop i).filter (·.slot≤v)) := by
  rw [←Bucket.observations_append,←List.filter_append,List.take_append_drop]
  rfl

theorem observations_filter_le (p : Bucket → Bool) (bs : List Bucket) :
    observations (bs.filter p)≤observations bs := by
  induction bs with
  | nil => exact Nat.le_refl _
  | cons b bs ih =>
    rw [List.filter_cons,Bucket.observations_cons]
    split
    · rw [Bucket.observations_cons]
      omega
    · omega

theorem running_le_upTo {h : Histogram} (hs : h.Sorted) {i : Nat} (hi : i<h.buckets.length) :
    h.running (i+1)≤Counter.clamp (h.upTo (h.slotAt i)) := by
  have all : (h.buckets.take (i+1)).filter (·.slot≤h.slotAt i)=h.buckets.take (i+1) := by
    apply List.filter_eq_self.mpr
    intro b hb
    obtain ⟨j,hj,rfl⟩ := List.mem_take_iff_getElem.mp hb
    rw [←slotAt_eq_getElem (by omega)]
    exact decide_eq_true (slotAt_mono hs (by omega) hi)
  apply Counter.clamp_le_clamp
  rw [upTo_split h _ (i+1),all,Nat.zero_add]
  exact Nat.le_add_right _ _

theorem upTo_le_running {h : Histogram} {i : Nat} {v : UInt64}
    (hv : ∀ j<h.buckets.length,i≤j → v<h.slotAt j) :
    Counter.clamp (h.upTo v)≤h.running i := by
  have none : (h.buckets.drop i).filter (·.slot≤v)=[] := by
    apply List.filter_eq_nil_iff.mpr
    intro b hb
    obtain ⟨j,hj,rfl⟩ := List.mem_drop_iff_getElem.mp hb
    rw [←slotAt_eq_getElem (by omega),decide_eq_true_iff,UInt64.not_le]
    exact hv (i+j) (by omega) (by omega)
  apply Counter.clamp_le_clamp
  rw [upTo_split h v i,none,Nat.zero_add]
  exact observations_filter_le _ _

/-- The slot that holds a rank: the least one with so many observations up to it, or the last one
if there are fewer in all. -/
structure IsFloor (h : Histogram) (rank : Counter) (v : UInt64) : Prop where
  mem : v∈h.slots
  reached : rank≤Counter.clamp (h.upTo v) ∨ ∀ w∈h.slots,w≤v
  least : ∀ w∈h.slots,w<v → Counter.clamp (h.upTo w)<rank

theorem IsFloor.mono {h : Histogram} {r s : Counter} {v w : UInt64} (hv : h.IsFloor r v)
    (hw : h.IsFloor s w) (hrs : r ≤ s) : v≤w := by
  apply UInt64.not_lt.mp
  intro hlt
  have hshort := hv.least w hw.mem hlt
  rcases hw.reached with hr | hlast
  · exact absurd hshort (UInt64.not_lt.mpr (UInt64.le_trans hrs hr))
  · exact absurd hlt (UInt64.not_lt.mpr (hlast v hv.mem))

theorem IsFloor.unique {h : Histogram} {rank : Counter} {v w : UInt64} (hv : h.IsFloor rank v)
    (hw : h.IsFloor rank w) : v=w :=
  UInt64.le_antisymm (hv.mono hw (UInt64.le_refl _)) (hw.mono hv (UInt64.le_refl _))

theorem isFloor_first {h : Histogram} (hs : h.Sorted) (hne : h.buckets≠[]) :
    h.IsFloor 0 (h.slotAt 0) := by
  have hpos : 0<h.buckets.length := List.length_pos_iff.mpr hne
  refine ⟨mem_slots_iff.mpr ⟨0,hpos,rfl⟩,.inl (UInt64.zero_le),?_⟩
  intro w hw hlt
  obtain ⟨j,hj,rfl⟩ := mem_slots_iff.mp hw
  exact absurd hlt (UInt64.not_lt.mpr (slotAt_mono hs (Nat.zero_le j) hj))

theorem isFloor_stop {h : Histogram} (hs : h.Sorted) (hne : h.buckets≠[]) (rank : Counter) :
    h.IsFloor rank (h.slotAt (h.stop (rank≤·)).index) := by
  have hpos : 0<h.buckets.length := List.length_pos_iff.mpr hne
  rcases h.stop_cases (rank≤·) with ⟨i,hi,hstop,hreached,hbefore⟩ | ⟨hstop,hshort⟩
  · have hreached : rank≤h.running (i+1) := of_decide_eq_true hreached
    rw [hstop]
    refine ⟨mem_slots_iff.mpr ⟨i,hi,rfl⟩,.inl (UInt64.le_trans hreached (running_le_upTo hs hi)),?_⟩
    intro w hw hlt
    obtain ⟨j,hj,rfl⟩ := mem_slots_iff.mp hw
    have hij : j < i := by
      apply Nat.lt_of_not_le
      intro hle
      exact absurd hlt (UInt64.not_lt.mpr (slotAt_mono hs hle hj))
    -- A lesser slot is used up before the stop, where the running total still fell short.
    have hshort := of_decide_eq_false (hbefore (i-1) (by omega))
    rw [Nat.sub_add_cancel (by omega)] at hshort
    apply UInt64.lt_of_le_of_lt (upTo_le_running _) (UInt64.not_le.mp hshort)
    intro k hk hik
    exact UInt64.lt_of_lt_of_le hlt (slotAt_mono hs hik hk)
  · -- Without a stop the walk is at the last bucket, and even the full total is short of the rank.
    have htotal := of_decide_eq_false (not_reached_total hne (rank≤·) hshort)
    have hlast : h.buckets.length-1<h.buckets.length := by omega
    rw [hstop]
    refine ⟨mem_slots_iff.mpr ⟨_,hlast,rfl⟩,.inr ?_,?_⟩
    · intro w hw
      obtain ⟨j,hj,rfl⟩ := mem_slots_iff.mp hw
      exact slotAt_mono hs (Nat.le_sub_one_of_lt hj) hlast
    · intro w _ _
      rw [←running_length,UInt64.not_le] at htotal
      apply UInt64.lt_of_le_of_lt (upTo_le_running _) htotal
      intro k hk hle
      omega

/-- The bucket-floor mode answers with the slot that holds the rank. -/
theorem isFloor_floorIndex {h : Histogram} (hs : h.Sorted) (hne : h.buckets≠[])
    (percentile : Float) : h.IsFloor (h.rank percentile) (h.slotAt (h.floorIndex percentile)) := by
  unfold floorIndex
  simp only
  split
  · rename_i hzero
    rw [hzero]
    exact isFloor_first hs hne
  · exact isFloor_stop hs hne _

theorem upTo_eq_observations {h : Histogram} {v : UInt64} (hv : ∀ w∈h.slots,w≤v) :
    h.upTo v=observations h.buckets := by
  have all : h.buckets.filter (·.slot≤v)=h.buckets := by
    apply List.filter_eq_self.mpr
    intro b hb
    exact decide_eq_true (hv b.slot (List.mem_map_of_mem hb))
  rw [upTo,all]

/-- Histograms with the same slots that count the same up to every slot, as far as counters go. -/
structure SameProfile (h k : Histogram) : Prop where
  slots : ∀ v,v∈h.slots ↔ v∈k.slots
  upTo : ∀ v,Counter.clamp (h.upTo v)=Counter.clamp (k.upTo v)

namespace SameProfile

variable {h k : Histogram}

theorem total_eq (s : SameProfile h k) : h.total=k.total := by
  let top : UInt64 := .ofNat (UInt64.size-1)
  have le_top (w : UInt64) : w≤top := UInt64.le_iff_toNat_le.mpr (Nat.le_sub_one_of_lt w.toNat_lt)
  have htop := s.upTo top
  rw [upTo_eq_observations (fun w _ => le_top w),
    upTo_eq_observations (fun w _ => le_top w)] at htop
  rw [total_eq_clamp,total_eq_clamp,htop]

theorem isFloor (s : SameProfile h k) {rank : Counter} {v : UInt64} (hv : h.IsFloor rank v) :
    k.IsFloor rank v := by
  refine ⟨(s.slots v).mp hv.mem,?_,?_⟩
  · rw [←s.upTo]
    rcases hv.reached with hr | hlast
    · exact .inl hr
    · exact .inr fun w hw => hlast w ((s.slots w).mpr hw)
  · intro w hw hlt
    rw [←s.upTo]
    exact hv.least w ((s.slots w).mpr hw) hlt

theorem buckets_ne_nil (s : SameProfile h k) (hne : h.buckets≠[]) : k.buckets≠[] := by
  obtain ⟨b,hb⟩ := List.exists_mem_of_ne_nil _ hne
  have hslot := (s.slots b.slot).mp (List.mem_map_of_mem hb)
  obtain ⟨c,hc,-⟩ := List.mem_map.mp hslot
  exact List.ne_nil_of_mem hc

theorem slotAt_floorIndex_eq (s : SameProfile h k) (hs : h.Sorted) (ks : k.Sorted)
    (hne : h.buckets≠[]) (percentile : Float) :
    h.slotAt (h.floorIndex percentile)=k.slotAt (k.floorIndex percentile) := by
  have hfloor := s.isFloor (isFloor_floorIndex hs hne percentile)
  have kfloor := isFloor_floorIndex ks (s.buckets_ne_nil hne) percentile
  have hrank : h.rank percentile=k.rank percentile := by
    unfold rank
    rw [s.total_eq]
  rw [hrank] at hfloor
  exact hfloor.unique kfloor

theorem estimate_eq (s : SameProfile h k) (hs : h.Sorted) (ks : k.Sorted)
    (hne : h.buckets≠[]) (percentile : Float) :
    h.estimate .bucketFloor percentile=k.estimate .bucketFloor percentile := by
  have hempty : h.isEmpty=false := List.isEmpty_eq_false_iff.mpr hne
  have kempty : k.isEmpty=false := List.isEmpty_eq_false_iff.mpr (s.buckets_ne_nil hne)
  unfold estimate
  rw [hempty,kempty,s.total_eq,s.slotAt_floorIndex_eq hs ks hne]

end SameProfile
end SchedLatency.Histogram
