import SchedLatency.Percentile

namespace SchedLatency

open Bucket (observations)

namespace Stop

def running (n : Nat) (bs : List Bucket) (k : Nat) : Counter :=
  Counter.clamp (n+observations (bs.take k))

theorem running_zero (n : Nat) (bs : List Bucket) : running n bs 0=Counter.clamp n := rfl

theorem running_cons (n : Nat) (b : Bucket) (bs : List Bucket) (k : Nat) :
    running n (b :: bs) (k+1)=running (n+b.count.toNat) bs k := by
  rw [running,running,List.take_succ_cons,Bucket.observations_cons,Nat.add_assoc]

theorem search?_some {reached : Counter → Bool} {i n : Nat} {bs : List Bucket} {s : Stop}
    (h : search? reached i (Counter.clamp n) bs=some s) :
    ∃ k<bs.length,s=⟨i+k,running n bs k,running n bs (k+1)⟩ ∧
      reached (running n bs (k+1))=true ∧ ∀ j<k,reached (running n bs (j+1))=false := by
  induction bs generalizing i n with
  | nil => cases h
  | cons b bs ih =>
    unfold search? at h
    rw [Counter.add_clamp,←running_zero _ bs,←running_cons n b bs] at h
    simp only at h
    split at h
    · rename_i hr
      cases h
      refine ⟨0,by simp,rfl,hr,?_⟩
      intro j hj
      omega
    · rename_i hr
      rw [running_cons] at h
      obtain ⟨k,hk,hs,hreached,hbefore⟩ := ih h
      refine ⟨k+1,by simpa using hk,?_,?_,?_⟩
      · rw [hs,running_cons,running_cons]
        congr 1
        omega
      · rw [running_cons]
        exact hreached
      · intro j hj
        cases j with
        | zero => exact Bool.eq_false_iff.mpr hr
        | succ j =>
          rw [running_cons]
          exact hbefore j (by omega)

theorem search?_none {reached : Counter → Bool} {i n : Nat} {bs : List Bucket}
    (h : search? reached i (Counter.clamp n) bs=none) :
    ∀ j<bs.length,reached (running n bs (j+1))=false := by
  induction bs generalizing i n with
  | nil =>
    intro j hj
    simp at hj
  | cons b bs ih =>
    unfold search? at h
    rw [Counter.add_clamp,←running_zero _ bs,←running_cons n b bs] at h
    simp only at h
    split at h
    · cases h
    · rename_i hr
      rw [running_cons] at h
      intro j hj
      cases j with
      | zero => exact Bool.eq_false_iff.mpr hr
      | succ j =>
        rw [running_cons]
        exact ih h j (by simpa using hj)

end Stop

namespace Histogram

/-- Running total of the first `k` buckets. -/
def running (h : Histogram) (k : Nat) : Counter := Stop.running 0 h.buckets k

theorem running_eq (h : Histogram) (k : Nat) :
    h.running k=Counter.clamp (observations (h.buckets.take k)) := by
  rw [running,Stop.running,Nat.zero_add]

theorem running_first (h : Histogram) : h.running 0=0 := rfl

theorem running_length (h : Histogram) : h.running h.buckets.length=h.total := by
  rw [running_eq,List.take_length,total_eq_clamp]

theorem running_of_uncounted {h : Histogram} {i : Nat} {b : Bucket}
    (hb : h.buckets[i]?=some b) (hcount : b.count=0) :
    h.running (i+1)=h.running i := by
  have htake : h.buckets.take (i+1)=h.buckets.take i++[b] := by
    rw [List.take_add_one,hb,Option.toList_some]
  have hnone : observations [b]=0 := by simp [observations,hcount]
  rw [running_eq,running_eq,htake,Bucket.observations_append,hnone,Nat.add_zero]

theorem observations_take_mono (bs : List Bucket) {i j : Nat} (hij : i≤j) :
    observations (bs.take i)≤observations (bs.take j) := by
  have hi : (bs.take j).take i=bs.take i := by
    rw [List.take_take,Nat.min_eq_left hij]
  have split := Bucket.observations_take_add_drop (bs.take j) i
  rw [hi] at split
  omega

theorem running_mono (h : Histogram) {i j : Nat} (hij : i≤j) : h.running i≤h.running j := by
  rw [running_eq,running_eq]
  exact Counter.clamp_le_clamp (observations_take_mono _ hij)

theorem running_le_next (h : Histogram) (i : Nat) : h.running i≤h.running (i+1) :=
  h.running_mono (Nat.le_succ i)

/-- A stop is at the first bucket whose running total is enough, and tells the totals around it. -/
theorem firstStop?_some {h : Histogram} {reached : Counter → Bool} {s : Stop}
    (hs : h.firstStop? reached=some s) :
    s.index<h.buckets.length ∧ s.before=h.running s.index ∧ s.through=h.running (s.index+1) ∧
      reached s.through=true ∧ ∀ j<s.index,reached (h.running (j+1))=false := by
  obtain ⟨k,hk,rfl,hreached,hbefore⟩ := Stop.search?_some (n := 0) hs
  simp only [Nat.zero_add]
  exact ⟨hk,rfl,rfl,hreached,hbefore⟩

theorem firstStop?_none {h : Histogram} {reached : Counter → Bool}
    (hs : h.firstStop? reached=none) : ∀ j<h.buckets.length,reached (h.running (j+1))=false :=
  Stop.search?_none (n := 0) hs

/-- A stop is at the first bucket that is enough, or at the last one for want of such a bucket. -/
theorem stop_cases (h : Histogram) (reached : Counter → Bool) :
    (∃ i<h.buckets.length,h.stop reached=⟨i,h.running i,h.running (i+1)⟩ ∧
      reached (h.running (i+1))=true ∧ ∀ j < i,reached (h.running (j+1))=false) ∨
    (h.stop reached=h.lastStop ∧ ∀ j<h.buckets.length,reached (h.running (j+1))=false) := by
  unfold stop
  cases hstop : h.firstStop? reached with
  | some s =>
    obtain ⟨hi,hbefore,hthrough,hreached,hshort⟩ := firstStop?_some hstop
    rw [hthrough] at hreached
    refine .inl ⟨s.index,hi,?_,hreached,hshort⟩
    rw [Option.getD_some,←hbefore,←hthrough]
  | none => exact .inr ⟨rfl,firstStop?_none hstop⟩

theorem not_reached_total {h : Histogram} (hne : h.buckets≠[]) (reached : Counter → Bool)
    (hshort : ∀ j<h.buckets.length,reached (h.running (j+1))=false) : reached h.total=false := by
  have hpos : 0<h.buckets.length := List.length_pos_iff.mpr hne
  have hlast := hshort (h.buckets.length-1) (by omega)
  rwa [Nat.sub_add_cancel hpos,running_length] at hlast

theorem firstStop?_of_reached {h : Histogram} {reached : Counter → Bool} {i : Nat}
    (hi : i<h.buckets.length) (hr : reached (h.running (i+1))=true) :
    ∃ s,h.firstStop? reached=some s := by
  cases hstop : h.firstStop? reached with
  | some s => exact ⟨s,rfl⟩
  | none =>
    have hshort := firstStop?_none hstop i hi
    rw [hr] at hshort
    contradiction

theorem firstStop?_of_total {h : Histogram} (reached : Counter → Bool) (hne : h.buckets≠[])
    (htotal : reached h.total=true) : ∃ s,h.firstStop? reached=some s := by
  have hpos : 0<h.buckets.length := List.length_pos_iff.mpr hne
  apply firstStop?_of_reached (Nat.sub_lt hpos Nat.one_pos)
  rwa [Nat.sub_add_cancel hpos,running_length]

theorem not_reached_before {h : Histogram} {reached : Counter → Bool} {s : Stop}
    (hs : h.firstStop? reached=some s) (hpos : 0<s.index) : reached s.before=false := by
  obtain ⟨-,hbefore,-,-,hshort⟩ := firstStop?_some hs
  have hprevious := hshort (s.index-1) (by omega)
  rwa [Nat.sub_add_cancel hpos,←hbefore] at hprevious

theorem stop_index_lt {h : Histogram} (hne : h.buckets≠[]) (reached : Counter → Bool) :
    (h.stop reached).index<h.buckets.length := by
  have hpos : 0<h.buckets.length := List.length_pos_iff.mpr hne
  rcases h.stop_cases reached with ⟨i,hi,hstop,-,-⟩ | ⟨hstop,-⟩
  · rw [hstop]
    exact hi
  · rw [hstop]
    exact Nat.sub_lt hpos Nat.one_pos

theorem lastStop_before_le (h : Histogram) : h.lastStop.before≤h.lastStop.through := by
  rw [lastStop,UInt64.le_iff_toNat_le,Counter.toNat_clamp]
  simp only
  omega

/-- Totals around a stop do not fall, also at a stop for want of buckets. -/
theorem stop_before_le (h : Histogram) (reached : Counter → Bool) :
    (h.stop reached).before≤(h.stop reached).through := by
  rcases h.stop_cases reached with ⟨i,-,hstop,-,-⟩ | ⟨hstop,-⟩
  · rw [hstop]
    exact h.running_le_next i
  · rw [hstop]
    exact h.lastStop_before_le

/-- A walk stops no later than at a bucket that is enough. -/
theorem stop_index_le {h : Histogram} {reached : Counter → Bool} {i : Nat}
    (hi : i<h.buckets.length) (hr : reached (h.running (i+1))=true) :
    (h.stop reached).index ≤ i := by
  rcases h.stop_cases reached with ⟨k,-,hstop,-,hshort⟩ | ⟨-,hshort⟩
  · rw [hstop]
    apply Nat.le_of_not_lt
    intro hlt
    have hfalse := hshort i hlt
    rw [hr] at hfalse
    contradiction
  · have hfalse := hshort i hi
    rw [hr] at hfalse
    contradiction

end Histogram
end SchedLatency
