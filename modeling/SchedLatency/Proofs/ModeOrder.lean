import SchedLatency.Proofs.Interpolation

namespace SchedLatency.Histogram

open Bucket (observations)
open Double

theorem share_lt_one {n : ℕ} (hn : n≤2^50) {a : ℚ} (ha : 0≤a) (hsmall : n*a<50) :
    share n a<1 := by
  have hfifty : nearest 50=50 := by exact_mod_cast nearest_natCast (n := 50) (by norm_num)
  have hhalf : nearest (1/2)=1/2 := by
    have h := nearest_of_grid (k := 1) (e := -1) (by norm_num) (by norm_num)
    simpa using h
  have hproduct : nearest (n*a)≤50 := by
    rw [←hfifty]
    exact nearest_mono (by positivity) hsmall.le
  have hnonneg : 0≤nearest (n*a) := nearest_nonneg (by positivity)
  have hquotient : nearest (nearest (n*a)/100)≤1/2 := by
    rw [←hhalf]
    exact nearest_mono (by positivity) (by linarith)
  rw [share,nearest_natCast (hn.trans (by norm_num))]
  linarith

/-- From half an observation on the roundings of both modes together are off by less than one. -/
theorem share_lt_portion_add_one {n : ℕ} (hn : n≤2^50) {a : ℚ} (ha : 0≤a) (hle : a≤100)
    (hlarge : 50≤n*a) : share n a<portion n a+1 := by
  have hn' : (n : ℚ)≤2^50 := by exact_mod_cast hn
  have hexact : nearest n=n := nearest_natCast (hn.trans (by norm_num))
  have hpercentage : 50/2^50≤a := by
    rw [div_le_iff₀ (by positivity)]
    linarith [mul_le_mul_of_nonneg_left hn' ha]
  have hproduct := nearest_le_mul (x := n*a) (by linarith)
  have hproduct' := mul_le_nearest (x := n*a) (by linarith)
  have hshare := nearest_le_mul (x := nearest (n*a)/100) (by linarith)
  have hquotient := mul_le_nearest (x := a/100) (by linarith)
  have hscaled := mul_le_mul_of_nonneg_left hquotient n.cast_nonneg
  have hportion := mul_le_nearest (x := n*nearest (a/100)) (by linarith)
  -- At worst two roundings go up and two go down: four parts in `2^53` of at most `2^50`.
  have htotal : n*a≤2^50*100 := mul_le_mul hn' hle ha (by positivity)
  rw [share,portion,hexact]
  linarith

/-- A whole number that a threshold does not exceed is not exceeded by the rank either. -/
theorem floor_share_le {n k : ℕ} (hn : n≤2^50) {a : ℚ} (ha : 0≤a) (hle : a≤100)
    (hk : portion n a≤k) : ⌊share n a⌋₊≤k := by
  apply floor_share_le_of_lt ha
  rcases lt_or_ge (n*a) 50 with hsmall | hlarge
  · have hcount : (0 : ℚ)≤k := k.cast_nonneg
    linarith [share_lt_one hn ha hsmall]
  · linarith [share_lt_portion_add_one hn ha hle hlarge]

variable {h : Histogram} {p : Float} {a : ℚ} {i : Nat}

theorem floorIndex_le (hx : h.Exact) (hcounts : observations h.buckets≤2^50) (ha : Denotes p a)
    (hle : a≤100) (hc : h.CrossedAt (h.threshold p) i) : h.floorIndex p ≤ i := by
  have htotal := hx.total_toNat
  have hreached := hx.reached_value hc (denotes_threshold h ha hle)
  have hrank : h.rank p≤h.running (i+1) := by
    have hfloor := floor_share_le (by omega) ha.nonneg hle hreached
    rw [h.rank_eq ha hle,←Counter.clamp_toNat (h.running (i+1))]
    exact Counter.clamp_le_clamp hfloor
  unfold floorIndex
  simp only
  split
  · exact Nat.zero_le i
  · exact stop_index_le hc.lt (decide_eq_true hrank)

/-- The bucket-floor mode stops no later than the interpolating one, and its slot is no more than
what that one answers. -/
theorem floor_le_interpolated (hs : h.Sorted) (hpos : 0<observations h.buckets)
    (hcounts : observations h.buckets≤2^50) (hslots : ∀ v∈h.slots,v.toNat≤2^52)
    (hp : accepts p) :
    h.floorIndex p≤(h.crossing p).index ∧
      h.estimate .bucketFloor p=.ok (.slot (h.slotAt (h.floorIndex p))) ∧
      ∃ x v,h.estimate .interpolated p=.ok (.interpolated x) ∧ Denotes x v ∧
        ((h.slotAt (h.floorIndex p)).toNat : ℚ)≤v := by
  have hx : h.Exact := ⟨by omega,hslots⟩
  have ht := total_ne_zero hpos (by omega)
  obtain ⟨a,ha,hle⟩ := denotes_of_accepts hp
  obtain ⟨i,x,hc,hindex,hestimate,hv⟩ := estimate_interpolated hs ht hp ha hle
  have hfloor := floorIndex_le hx hcounts ha hle hc
  have hstart := slot_le_positionIn hs (hc.before_le (denotes_threshold h ha hle))
  have hslot : ((h.slotAt (h.floorIndex p)).toNat : ℚ)≤(h.slotAt i).toNat := by
    exact_mod_cast UInt64.le_iff_toNat_le.mp (slotAt_mono hs hfloor hc.lt)
  rw [hx.nearest_slotAt] at hstart
  exact ⟨hindex ▸ hfloor,estimate_eq_slotAt ht hp,x,_,hestimate,hv,hslot.trans hstart⟩

/-- At 29 percent of a hundred the threshold falls short of the rank. -/
theorem floor_le_interpolated_short :
    let h : Histogram := ⟨[⟨3,28⟩,⟨5,1⟩,⟨8,71⟩]⟩
    (h.Sorted ∧ 0<observations h.buckets ∧ observations h.buckets≤2^50 ∧
      (∀ v∈h.slots,v.toNat≤2^52) ∧ accepts 29) ∧
      h.threshold 29<(29 : Float) ∧ h.rank 29=29 ∧ h.floorIndex 29≤(h.crossing 29).index := by
  intro h
  have hs : h.Sorted := by
    unfold Sorted
    decide
  have hslots : ∀ v∈h.slots,v.toNat≤2^52 := by simp [h,slots]
  have hp : accepts 29 := by rfl
  have hfloor := floor_le_interpolated hs (by decide) (by decide) hslots hp
  exact ⟨⟨hs,by decide,by decide,hslots,hp⟩,by decide +kernel,by decide +kernel,hfloor.1⟩

end SchedLatency.Histogram
