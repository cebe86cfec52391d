import SchedLatency.Proofs.Double.Order
import SchedLatency.Proofs.Interpolation

namespace SchedLatency.Histogram

open Bucket (observations)
open Double

variable {h : Histogram} {p : Float} {reached : Counter → Bool} {s : Stop} {i : Nat} {b : Bucket}

theorem stop_of_firstStop? (hs : h.firstStop? reached=some s) : h.stop reached=s := by
  rw [stop,hs,Option.getD_some]

theorem bucket_of_firstStop? (hs : h.firstStop? reached=some s) :
    ∃ b,h.buckets[s.index]?=some b ∧ h.slotAt s.index=b.slot := by
  have hi := (firstStop?_some hs).1
  exact ⟨_,List.getElem?_eq_getElem hi,slotAt_eq_getElem hi⟩

/-- The running total does not change in a bucket without observations, so no walk has to wait for
such a bucket. -/
theorem counted_of_firstStop? (hs : h.firstStop? reached=some s) (hzero : reached 0=false)
    (hb : h.buckets[s.index]?=some b) : b.count≠0 := by
  obtain ⟨-,hbefore,hthrough,hreached,-⟩ := firstStop?_some hs
  intro hcount
  rw [hthrough,running_of_uncounted hb hcount,←hbefore] at hreached
  have hshort : reached s.before=false := by
    rcases Nat.eq_zero_or_pos s.index with hfirst | hpos
    · rwa [hbefore,hfirst,running_first]
    · exact not_reached_before hs hpos
  rw [hshort] at hreached
  contradiction

/-- Below `2^52` observations a rank is rounded up by less than one. -/
theorem share_le_add_half {n : ℕ} (hn : n<2^52) {a : ℚ} (ha : 0≤a) (hle : a≤100) :
    share n a≤n+1/2 := by
  rcases Nat.eq_zero_or_pos n with rfl | hpos
  · have hnone : share 0 a=0 := by
      rw [share,Nat.cast_zero,nearest_zero,zero_mul,nearest_zero,zero_div,nearest_zero]
    rw [hnone]
    norm_num
  have hone : (1 : ℚ)≤n := by exact_mod_cast hpos
  have hsmall : (n : ℚ)≤2^52 := by exact_mod_cast hn.le
  have hexact : nearest n=n := nearest_natCast (by omega)
  have hhalf : nearest (n+1/2)=n+1/2 := by
    have hgrid := nearest_of_grid (k := 2*n+1) (e := -1) (by omega) (by norm_num)
    have hvalue : ((2*n+1 : ℕ) : ℚ)*2^(-1 : ℤ)=n+1/2 := by
      push_cast
      ring
    rwa [hvalue] at hgrid
  have hproduct := nearest_le_mul (x := n*100) (by linarith)
  have hquotient : nearest (n*100)/100≤n+1/2 := by linarith
  calc
    share n a ≤ share n 100 := share_mono n ha hle
    _=nearest (nearest (n*100)/100) := by rw [share,hexact]
    _≤nearest (n+1/2) :=
      nearest_mono (div_nonneg (nearest_nonneg (by positivity)) (by norm_num)) hquotient
    _=n+1/2 := hhalf

theorem rank_le_total (hcounts : observations h.buckets<2^52) (hp : accepts p) :
    h.rank p≤h.total := by
  obtain ⟨a,ha,hle⟩ := denotes_of_accepts hp
  have htotal : h.total.toNat=observations h.buckets := total_toNat (by omega)
  have hshare := share_le_add_half (n := h.total.toNat) (by omega) ha.nonneg hle
  have hfloor : ⌊share h.total.toNat a⌋₊≤h.total.toNat :=
    floor_share_le_of_lt ha.nonneg (by linarith)
  have hclamp := Counter.clamp_le_clamp hfloor
  rwa [Counter.clamp_toNat,←h.rank_eq ha hle] at hclamp

/-- The walk for a rank or a threshold stops by itself, in the bucket-floor mode as long as fewer
than `2^52` observations are counted. It stops at a bucket that counts something, and answers from
this bucket, whenever a rank of at least one or a threshold above zero is asked for. -/
theorem estimate_stops_at_counted (ht : h.total≠0) (hp : accepts p) :
    (∃ s b,h.firstStop? (h.threshold p≤·.toFloat)=some s ∧ h.buckets[s.index]?=some b ∧
      h.estimate .interpolated p=.ok (.interpolated
        (b.slot.toFloat+fractionInto s (h.threshold p)*(h.endOf s.index-b.slot.toFloat))) ∧
      (0<h.threshold p → b.count≠0)) ∧
    (observations h.buckets<2^52 →
      ∃ s b,h.firstStop? (h.rank p≤·)=some s ∧ h.buckets[s.index]?=some b ∧
        (1≤(h.rank p).toNat → h.estimate .bucketFloor p=.ok (.slot b.slot) ∧ b.count≠0)) := by
  have hne := buckets_ne_nil ht
  constructor
  · obtain ⟨a,ha,hle⟩ := denotes_of_accepts hp
    obtain ⟨s,hs⟩ := firstStop?_of_total (h.threshold p≤·.toFloat) hne
      (decide_eq_true (h.threshold_le_total ha hle))
    obtain ⟨b,hb,hslot⟩ := bucket_of_firstStop? hs
    have hcrossing : h.crossing p=s := stop_of_firstStop? hs
    have hvalue : h.interpolate p=
        b.slot.toFloat+fractionInto s (h.threshold p)*(h.endOf s.index-b.slot.toFloat) := by
      unfold interpolate
      simp only [hcrossing,hslot]
    refine ⟨s,b,hs,hb,?_,?_⟩
    · rw [←hvalue]
      exact estimate_eq_ok ht hp .interpolated
    · intro hpos
      have hzero : ¬h.threshold p≤(0 : Counter).toFloat := not_le_iff.mpr (.inr (.inr hpos))
      exact counted_of_firstStop? hs (decide_eq_false hzero) hb
  · intro hcounts
    obtain ⟨s,hs⟩ := firstStop?_of_total (h.rank p≤·) hne
      (decide_eq_true (rank_le_total hcounts hp))
    obtain ⟨b,hb,hslot⟩ := bucket_of_firstStop? hs
    refine ⟨s,b,hs,hb,?_⟩
    intro hlow
    have hrank : h.rank p≠0 := by
      intro hzero
      rw [hzero,UInt64.toNat_zero] at hlow
      contradiction
    have hzero : ¬h.rank p≤0 := by
      rw [UInt64.le_iff_toNat_le,UInt64.toNat_zero]
      omega
    have hindex : h.floorIndex p=s.index := by
      unfold floorIndex
      simp only
      rw [if_neg hrank,stop_of_firstStop? hs]
    refine ⟨?_,counted_of_firstStop? hs (decide_eq_false hzero) hb⟩
    rw [estimate_eq_slotAt ht hp,hindex,hslot]

/-- Percentile 100 of a histogram that begins and ends with a bucket without observations. -/
theorem estimate_stops_at_counted_hundred :
    let h : Histogram := ⟨[⟨1,0⟩,⟨2,3⟩,⟨5,4⟩,⟨9,0⟩]⟩
    (h.total≠0 ∧ accepts 100) ∧ observations h.buckets<2^52 ∧ 0<h.threshold 100 ∧
      (h.rank 100).toNat=7 ∧ h.firstStop? (h.rank 100≤·)=some ⟨2,3,7⟩ ∧
      h.estimate .bucketFloor 100=.ok (.slot 5) ∧
      h.firstStop? (h.threshold 100≤·.toFloat)=some ⟨2,3,7⟩ ∧
      h.estimate .interpolated 100=.ok (.interpolated 9) := by
  intro h
  have ht : h.total≠0 := by decide
  have hp : accepts 100 := by rfl
  have hrank : h.rank 100=7 := by decide +kernel
  have hpos : 0<h.threshold 100 := by decide +kernel
  have hcrossed : h.firstStop? (h.threshold 100≤·.toFloat)=some ⟨2,3,7⟩ := by decide +kernel
  have hend : (5 : UInt64).toFloat+fractionInto ⟨2,3,7⟩ (h.threshold 100)*
      (h.endOf 2-(5 : UInt64).toFloat)=9 := by decide +kernel
  obtain ⟨⟨s',b',hs',hb',hposition,-⟩,hfloor⟩ := estimate_stops_at_counted ht hp
  obtain rfl : ⟨2,3,7⟩=s' := Option.some.inj (hcrossed.symm.trans hs')
  obtain rfl : ⟨5,4⟩=b' := Option.some.inj (hb' ▸ rfl)
  obtain ⟨s,b,hs,hb,hanswer⟩ := hfloor (by decide)
  rw [hrank] at hs hanswer
  obtain rfl : ⟨2,3,7⟩=s := Option.some.inj (hs ▸ rfl)
  obtain rfl : ⟨5,4⟩=b := Option.some.inj (hb ▸ rfl)
  rw [hend] at hposition
  rw [hrank]
  exact ⟨⟨ht,hp⟩,by decide,hpos,rfl,hs,(hanswer (by decide)).1,hcrossed,hposition⟩

/-- The interpolated position may be the upper end of the bucket at which the walk stops, and so the
slot of the next one, though that counts nothing. -/
theorem interpolated_reaches_uncounted :
    let h : Histogram := ⟨[⟨1,0⟩,⟨2,3⟩,⟨5,4⟩,⟨9,0⟩]⟩
    h.total≠0 ∧ accepts 100 ∧ observations h.buckets<2^52 ∧ 0<h.threshold 100 ∧
      h.estimate .interpolated 100=.ok (.interpolated (9 : UInt64).toFloat) ∧
      (∃ b∈h.buckets,b.slot=9) ∧ ∀ b∈h.buckets,b.slot=9 → b.count=0 := by
  decide +kernel

/-- Above `2^52` observations rounding may ask for more than there are, and then the last bucket is
taken whether it counts something or not. -/
example :
    let h : Histogram := ⟨[⟨1,9007199254740995⟩,⟨2,0⟩]⟩
    h.total<h.rank 100 ∧ h.firstStop? (h.rank 100≤·)=none ∧ h.slotAt (h.floorIndex 100)=2 := by
  decide +kernel

end SchedLatency.Histogram
