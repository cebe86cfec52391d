import SchedLatency.Proofs.Position

namespace SchedLatency.Histogram

open Bucket (observations)
open Double

variable {h : Histogram} {p q t : Float} {a θ : ℚ} {i : Nat}

theorem estimate_interpolated (hs : h.Sorted) (ht : h.total≠0) (hp : accepts p)
    (ha : Denotes p a) (hle : a≤100) :
    ∃ i x,h.CrossedAt (h.threshold p) i ∧ (h.crossing p).index=i ∧
      h.estimate .interpolated p=.ok (.interpolated x) ∧
      Denotes x (h.positionIn i (portion h.total.toNat a)) := by
  obtain ⟨i,hc,hstop⟩ := crossing_eq (buckets_ne_nil ht) ha hle
  have hposition := (unsigned_interpolate hs hc hstop (denotes_threshold h ha hle)).denotes
  refine ⟨i,h.interpolate p,hc,?_,estimate_eq_ok ht hp .interpolated,hposition⟩
  rw [hstop]

/-- Interpolated estimates grow with the percentile. -/
theorem interpolated_mono (hs : h.Sorted) (hpos : 0<observations h.buckets) (hx : h.Exact)
    (hp : accepts p) (hq : accepts q) (hpq : p≤q) :
    ∃ x y,h.estimate .interpolated p=.ok (.interpolated x) ∧
      h.estimate .interpolated q=.ok (.interpolated y) ∧ x≤y := by
  have hcounts := hx.counts
  have ht := total_ne_zero hpos (by omega)
  obtain ⟨a,ha,halt⟩ := denotes_of_accepts hp
  obtain ⟨b,hb,hblt⟩ := denotes_of_accepts hq
  obtain ⟨i,x,hc,-,hestimate,hx'⟩ := estimate_interpolated hs ht hp ha halt
  obtain ⟨j,y,hd,-,hestimate',hy⟩ := estimate_interpolated hs ht hq hb hblt
  refine ⟨x,y,hestimate,hestimate',(hx'.le_iff hy).mpr ?_⟩
  have hle := portion_mono h.total.toNat ha.nonneg ((ha.le_iff hb).mp hpq)
  exact hx.positionIn_le_of_le hs hc (denotes_threshold h ha halt) hd (denotes_threshold h hb hblt)
    hle

theorem interpolated_mono_of_split :
    let h : Histogram := ⟨[⟨3,0⟩,⟨3,4⟩,⟨3,5⟩,⟨8,2⟩]⟩
    (h.Sorted ∧ 0<observations h.buckets ∧ h.Exact ∧ accepts 25 ∧ accepts 90 ∧ (25 : Float)≤90) ∧
      ∃ x y,h.estimate .interpolated 25=.ok (.interpolated x) ∧
        h.estimate .interpolated 90=.ok (.interpolated y) ∧ x≤y := by
  intro h
  have hs : h.Sorted := by
    unfold Sorted
    decide
  have hx : h.Exact := ⟨by decide,by simp [h,slots]⟩
  have hp : accepts 25 := by rfl
  have hq : accepts 90 := by rfl
  have hpq : (25 : Float)≤90 := by decide +kernel
  exact ⟨⟨hs,by decide,hx,hp,hq,hpq⟩,interpolated_mono hs (by decide) hx hp hq hpq⟩

theorem CrossedAt.eq_zero (hc : h.CrossedAt t i) (ht : Denotes t 0) : i=0 := by
  by_contra hne
  have hshort := hc.short_value ht (Nat.pos_of_ne_zero hne)
  have hnonneg := nearest_natCast_nonneg (h.running (0+1)).toNat
  linarith

theorem depth_zero (h : Histogram) : h.depth 0 0=0 := by
  rw [depth,running_first,UInt64.toNat_zero,Nat.cast_zero,nearest_zero,sub_zero,nearest_zero,
    zero_div,nearest_zero,ite_self]

/-- The bucket at a position counts something, and none behind it does. -/
structure IsLastCounted (h : Histogram) (i : Nat) : Prop where
  counted : ∃ b,h.buckets[i]?=some b ∧ b.count≠0
  rest : ∀ b∈h.buckets.drop (i+1),b.count=0

theorem running_succ_ne (hx : h.Exact) (hc : h.CrossedAt t i) (ht : Denotes t θ) (hpos : 0<θ) :
    h.running (i+1)≠h.running i := by
  intro hsame
  have hreached := hx.reached_value hc ht
  rw [hsame,←hx.nearest_running] at hreached
  cases i with
  | zero =>
    rw [running_first,UInt64.toNat_zero,Nat.cast_zero,nearest_zero] at hreached
    linarith
  | succ i =>
    have hshort := hc.short_value ht (Nat.lt_succ_self i)
    linarith

theorem CrossedAt.isLastCounted (hx : h.Exact) (hc : h.CrossedAt t i)
    (ht : Denotes t h.total.toNat) (hpos : 0<observations h.buckets) :
    h.running (i+1)=h.total ∧ h.IsLastCounted i := by
  have htotal := hx.total_toNat
  have hreached := hx.reached_value hc ht
  have hle : h.total.toNat≤(h.running (i+1)).toNat := by exact_mod_cast hreached
  have hi := hc.lt
  have split := Bucket.observations_take_add_drop h.buckets (i+1)
  have hthrough := hx.running_toNat (i+1)
  have hne := running_succ_ne hx hc ht (by rw [htotal]; exact_mod_cast hpos)
  refine ⟨UInt64.toNat_inj.mp (by omega),⟨h.buckets[i],List.getElem?_eq_getElem hi,?_⟩,?_⟩
  · intro hzero
    exact hne (running_of_uncounted (List.getElem?_eq_getElem hi) hzero)
  · exact Bucket.observations_eq_zero_iff.mp (by omega)

/-- An interpolated estimate lies in the bucket in which the threshold is crossed: never before it,
and not behind it if counts and slots are exact, when the ends of the scale are the first slot and
the upper end of the last bucket that counts something. -/
theorem interpolated_in_bucket (hs : h.Sorted) (ht : h.total≠0) (hp : accepts p) :
    ∃ i x,h.CrossedAt (h.threshold p) i ∧ h.estimate .interpolated p=.ok (.interpolated x) ∧
      (h.slotAt i).toFloat≤x ∧ (h.Exact → ∃ v,Denotes x v ∧ v≤h.upperEnd i ∧
        (p≤0 → v=(h.slotAt 0).toNat) ∧ (100≤p → h.IsLastCounted i ∧ v=h.upperEnd i)) := by
  obtain ⟨a,ha,hle⟩ := denotes_of_accepts hp
  obtain ⟨i,x,hc,-,hestimate,hv⟩ := estimate_interpolated hs ht hp ha hle
  have hθ := denotes_threshold h ha hle
  refine ⟨i,x,hc,hestimate,?_,?_⟩
  · rw [(denotes_toFloat _).le_iff hv]
    exact slot_le_positionIn hs (hc.before_le hθ)
  · intro hx
    refine ⟨_,hv,hx.positionIn_le hs (hc.before_le hθ) (hx.reached_value hc hθ),?_,?_⟩
    · intro hlow
      have hzero : a=0 := le_antisymm ((ha.le_iff denotes_zero).mp hlow) ha.nonneg
      rw [hzero,portion_zero] at hθ ⊢
      obtain rfl := hc.eq_zero hθ
      rw [positionIn,depth_zero,hx.nearest_slotAt]
      exact pointAt_zero (hx.nearest_slotAt 0) _
    · intro hhigh
      have hhundred : a=100 := le_antisymm hle ((denotes_hundred.le_iff ha).mp hhigh)
      rw [hhundred,portion_hundred,hx.nearest_total] at hθ ⊢
      have hpos : 0<observations h.buckets := by
        rw [←hx.total_toNat]
        exact Nat.pos_of_ne_zero fun hzero => ht (UInt64.toNat_inj.mp hzero)
      obtain ⟨hthrough,hlast⟩ := hc.isLastCounted hx hθ hpos
      have hne := running_succ_ne hx hc hθ (by rw [hx.total_toNat]; exact_mod_cast hpos)
      refine ⟨hlast,?_⟩
      rw [hx.positionIn_eq,←hthrough,hx.depth_reached hne,
        pointAt_one (slotAt_le_upperEnd hs i) (hx.upperEnd_le i)]

/-- At 100 an estimate reaches the end of the last bucket that counts something, here the slot of an
empty one. -/
theorem interpolated_in_bucket_hundred :
    let h : Histogram := ⟨[⟨2,1⟩,⟨5,1⟩,⟨9,0⟩]⟩
    (h.Sorted ∧ h.total≠0 ∧ accepts 100 ∧ h.Exact) ∧
      ∃ x,h.estimate .interpolated 100=.ok (.interpolated x) ∧ Denotes x 9 := by
  intro h
  have hs : h.Sorted := by
    unfold Sorted
    decide
  have ht : h.total≠0 := by decide
  have hp : accepts 100 := by rfl
  have hx : h.Exact := ⟨by decide,by simp [h,slots]⟩
  obtain ⟨i,x,hc,hestimate,-,hexact⟩ := interpolated_in_bucket hs ht hp
  obtain ⟨v,hv,-,-,hend⟩ := hexact hx
  obtain ⟨hlast,rfl⟩ := hend (by decide +kernel)
  have hi : i<3 := hc.lt
  have hone : i=1 := by
    interval_cases i
    · exact absurd (hlast.rest ⟨5,1⟩ (by simp [h])) (by decide)
    · rfl
    · obtain ⟨b,hb,hcount⟩ := hlast.counted
      cases hb
      exact absurd rfl hcount
  rw [hone] at hv
  exact ⟨⟨hs,ht,hp,hx⟩,x,hestimate,by exact_mod_cast hv⟩

end SchedLatency.Histogram
