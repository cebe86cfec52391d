import Mathlib.Algebra.Ring.Nat
import Mathlib.Order.Bounds.Defs
import SchedLatency.Proofs.Walk

namespace SchedLatency.Histogram

open Bucket (observations)

/-- The first `k` buckets as a histogram of their own. -/
def front (h : Histogram) (k : Nat) : Histogram := ⟨h.buckets.take k⟩

theorem total_front (h : Histogram) (k : Nat) : (h.front k).total=h.running k := by
  rw [total_eq_clamp,running_eq]
  rfl

/-- A condition on totals that every greater total satisfies too. -/
def Upward (reached : Counter → Bool) : Prop := ∀ a b,a≤b → reached a → reached b

theorem upward_le (rank : Counter) : Upward (rank≤·) := by
  intro a b hab ha
  exact decide_eq_true (UInt64.le_trans (of_decide_eq_true ha) hab)

theorem running_toNat (h : Histogram) (k : Nat) :
    (h.running k).toNat=min (2^64-1) (observations (h.buckets.take k)) := by
  rw [running_eq,Counter.toNat_clamp]
  rfl

theorem lastStop_index_succ {h : Histogram} (hne : h.buckets≠[]) :
    h.lastStop.index+1=h.buckets.length :=
  Nat.sub_add_cancel (List.length_pos_iff.mpr hne)

variable {h : Histogram} {reached : Counter → Bool} {s : Stop}

theorem exists_firstStop?_iff :
    (∃ s,h.firstStop? reached=some s) ↔
      ∃ i<h.buckets.length,reached (h.front (i+1)).total := by
  constructor
  · rintro ⟨s,hs⟩
    obtain ⟨hi,-,hthrough,hreached,-⟩ := firstStop?_some hs
    rw [hthrough,←total_front] at hreached
    exact ⟨s.index,hi,hreached⟩
  · rintro ⟨i,hi,hreached⟩
    apply firstStop?_of_reached hi
    rwa [←total_front]

/-- No running total exceeds the total, which is the last of them. -/
theorem exists_firstStop?_iff_total (up : Upward reached) (hne : h.buckets≠[]) :
    (∃ s,h.firstStop? reached=some s) ↔ reached h.total := by
  constructor
  · rintro ⟨s,hs⟩
    obtain ⟨hi,-,hthrough,hreached,-⟩ := firstStop?_some hs
    apply up s.through h.total _ hreached
    rw [hthrough,←running_length]
    exact h.running_mono hi
  · exact firstStop?_of_total reached hne

theorem isLeast_index (hs : h.firstStop? reached=some s) :
    IsLeast {i | i<h.buckets.length ∧ reached (h.front (i+1)).total} s.index := by
  obtain ⟨hi,-,hthrough,hreached,hshort⟩ := firstStop?_some hs
  rw [hthrough,←total_front] at hreached
  refine ⟨⟨hi,hreached⟩,?_⟩
  rintro i ⟨-,henough⟩
  apply Nat.le_of_not_lt
  intro hlt
  have hfalse := hshort i hlt
  rw [←total_front,henough] at hfalse
  contradiction

/-- The walk stops exactly if some running total is enough, which is to say the whole total. It is at
the least such position, with the clamped sums before it and including it; a stop for want of buckets
is at the last one, and the totals told there do not fall either. -/
theorem firstStop?_traverses (h : Histogram) (up : Upward reached) :
    ((∃ s,h.firstStop? reached=some s) ↔
      ∃ i<h.buckets.length,reached (h.front (i+1)).total) ∧
    (h.buckets≠[] → ((∃ s,h.firstStop? reached=some s) ↔ reached h.total)) ∧
    (∀ s,h.firstStop? reached=some s →
      IsLeast {i | i<h.buckets.length ∧ reached (h.front (i+1)).total} s.index ∧
      s.through.toNat=min (2^64-1) (observations (h.buckets.take (s.index+1))) ∧
      s.before.toNat=min (2^64-1) (observations (h.buckets.take s.index)) ∧
      s.before ≤ s.through ∧ (0<s.index → reached s.before=false)) ∧
    (h.buckets≠[] → h.lastStop.index+1=h.buckets.length ∧ h.lastStop.through=h.total ∧
      h.lastStop.before≤h.lastStop.through) := by
  refine ⟨exists_firstStop?_iff,exists_firstStop?_iff_total up,?_,?_⟩
  · intro s hs
    obtain ⟨-,hbefore,hthrough,-,-⟩ := firstStop?_some hs
    refine ⟨isLeast_index hs,?_,?_,?_,not_reached_before hs⟩
    · rw [hthrough,running_toNat]
    · rw [hbefore,running_toNat]
    · rw [hbefore,hthrough]
      exact h.running_le_next _
  · intro hne
    exact ⟨lastStop_index_succ hne,rfl,h.lastStop_before_le⟩

/-- A walk for all that a counter can hold, over buckets that count more. -/
theorem firstStop?_traverses_saturated :
    let h : Histogram := ⟨[⟨1,0⟩,⟨2,18446744073709551610⟩,⟨2,0⟩,⟨3,10⟩,⟨9,4⟩]⟩
    let s : Stop := ⟨3,18446744073709551610,18446744073709551615⟩
    (Upward (18446744073709551615≤·) ∧ h.buckets≠[] ∧
      h.firstStop? (18446744073709551615≤·)=some s) ∧
      IsLeast {i | i<h.buckets.length ∧ decide (18446744073709551615≤(h.front (i+1)).total)} 3 ∧
      s.through.toNat=min (2^64-1) (observations (h.buckets.take 4)) ∧
      h.lastStop.before≤h.lastStop.through := by
  intro h s
  have up := upward_le 18446744073709551615
  have hne : h.buckets≠[] := by decide
  have hs : h.firstStop? (18446744073709551615≤·)=some s := by decide
  obtain ⟨-,-,htold,hlast⟩ := firstStop?_traverses h up
  obtain ⟨hleast,hthrough,-,-,-⟩ := htold s hs
  exact ⟨⟨up,hne,hs⟩,hleast,hthrough,(hlast hne).2.2⟩

end SchedLatency.Histogram
