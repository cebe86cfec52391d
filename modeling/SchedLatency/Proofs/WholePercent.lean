import SchedLatency.Proofs.OrderStatistic

namespace SchedLatency.Histogram

open Bucket (observations)
open Double

/-- Rounding a hundredth neither drops it below an integer nor lifts it up to one. -/
theorem floor_nearest_div_hundred {m : ℕ} (hm : m<2^53) : ⌊nearest (m/100)⌋₊=m/100 := by
  rcases Nat.eq_zero_or_pos m with rfl | hpos
  · simp [nearest_zero]
  have hone : (1 : ℚ) ≤ m := by exact_mod_cast hpos
  have hmax : (m : ℚ)<2^53 := by exact_mod_cast hm
  have split : (m : ℚ)=100*(m/100 : ℕ)+(m%100 : ℕ) := by
    exact_mod_cast (Nat.div_add_mod m 100).symm
  have hrest : ((m%100 : ℕ) : ℚ)≤99 := by
    exact_mod_cast Nat.le_of_lt_succ (Nat.mod_lt m (by norm_num))
  have hexact : nearest (m/100 : ℕ)=(m/100 : ℕ) := nearest_natCast (by omega)
  have hlow : ((m/100 : ℕ) : ℚ)≤nearest (m/100) := by
    rw [←hexact]
    exact nearest_mono (Nat.cast_nonneg _) Nat.cast_div_le
  have hhigh : nearest (m/100)<(m/100 : ℕ)+1 := by
    -- A hundredth at least is missing to the next integer, and rounding adds less than that.
    have herror := nearest_le_mul (x := m/100) (by linarith)
    linarith
  exact (Nat.floor_eq_iff (nearest_nonneg (by positivity))).mpr ⟨hlow,hhigh⟩

theorem floor_share_whole {n k : ℕ} (hproduct : n*k<2^53) : ⌊share n k⌋₊=n*k/100 := by
  rcases Nat.eq_zero_or_pos k with rfl | hpos
  · rw [Nat.cast_zero,share_zero,Nat.floor_zero,mul_zero,Nat.zero_div]
  have hn : n≤n*k := Nat.le_mul_of_pos_right n hpos
  have product : nearest (n*k)=(n*k : ℕ) := by
    rw [←Nat.cast_mul]
    exact nearest_natCast hproduct.le
  rw [share,nearest_natCast (by omega),product]
  exact floor_nearest_div_hundred hproduct

theorem denotes_whole {k : ℕ} (hk : k≤100) : Denotes k.toUInt64.toFloat k := by
  have word : k.toUInt64.toNat=k := Nat.mod_eq_of_lt (by omega)
  have h := denotes_toFloat k.toUInt64
  rwa [word,nearest_natCast (by omega)] at h

variable {h : Histogram} {p : Float} {k : ℕ}

theorem rank_whole (hp : Denotes p k) (hk : k≤100) (hproduct : h.total.toNat*k<2^53) :
    (h.rank p).toNat=h.total.toNat*k/100 := by
  have hfit : h.total.toNat*k/100<2^64 := by omega
  rw [h.rank_eq hp (by exact_mod_cast hk),floor_share_whole hproduct]
  exact Counter.toNat_clamp_of_lt hfit

/-- A total below the limit of counters has left nothing out. -/
theorem observations_of_total_lt (hlt : h.total.toNat<Counter.limit) :
    observations h.buckets=h.total.toNat := by
  rw [total_eq_clamp,Counter.toNat_clamp] at hlt ⊢
  omega

theorem estimate_whole (hs : h.Sorted) (hp : Denotes p k) (hk : k≤100)
    (hproduct : h.total.toNat*k<2^53) (hlarge : 100≤h.total.toNat*k) :
    ∃ v,h.values[h.total.toNat*k/100-1]?=some v ∧ h.estimate .bucketFloor p=.ok (.slot v) := by
  have hrank := rank_whole hp hk hproduct
  have haccepts := accepts_of_denotes hp (by exact_mod_cast hk)
  have hpos : 0<k := Nat.pos_of_ne_zero fun hzero => by simp [hzero] at hlarge
  have htotal : h.total.toNat≤h.total.toNat*k := Nat.le_mul_of_pos_right _ hpos
  have hcount := observations_of_total_lt (h := h) (by rw [Counter.limit,UInt64.size]; omega)
  have hle : h.total.toNat*k≤h.total.toNat*100 := Nat.mul_le_mul_left _ hk
  have hi : (h.rank p).toNat-1<h.values.length := by
    rw [length_values]
    omega
  refine ⟨_,?_,estimate_eq_getElem hs (by omega) haccepts (by omega) hi⟩
  rw [←hrank]
  exact List.getElem?_eq_getElem hi

theorem estimate_whole_first (ht : h.total≠0) (hp : Denotes p k) (hk : k≤100)
    (hproduct : h.total.toNat*k<2^53) (hsmall : h.total.toNat*k<100) :
    h.estimate .bucketFloor p=.ok (.slot (h.slotAt 0)) := by
  apply estimate_of_rank_zero ht (accepts_of_denotes hp (by exact_mod_cast hk))
  apply UInt64.toNat_inj.mp
  rw [rank_whole hp hk hproduct,UInt64.toNat_zero]
  omega

/-- The rank of a whole percentage is the integer quotient as long as the product is below `2^53`.
No observation is lost or gained: the answer is the one in that place, or the first slot where the
quotient is zero. -/
theorem rank_exact_of_whole (h : Histogram) (hk : k≤100) (hproduct : h.total.toNat*k<2^53) :
    Denotes k.toUInt64.toFloat k ∧ ∀ p,Denotes p k →
      (h.rank p).toNat=h.total.toNat*k/100 ∧
      (h.Sorted → h.total≠0 →
        (h.total.toNat*k<100 → h.estimate .bucketFloor p=.ok (.slot (h.slotAt 0))) ∧
        (100≤h.total.toNat*k → ∃ v,h.values[h.total.toNat*k/100-1]?=some v ∧
          h.estimate .bucketFloor p=.ok (.slot v))) := by
  refine ⟨denotes_whole hk,?_⟩
  intro p hp
  refine ⟨rank_whole hp hk hproduct,?_⟩
  intro hs ht
  exact ⟨estimate_whole_first ht hp hk hproduct,estimate_whole hs hp hk hproduct⟩

/-- Three percent of 133 observations, a hundredth short of the fourth. -/
theorem rank_exact_of_whole_three :
    let h : Histogram := ⟨[⟨3,2⟩,⟨5,1⟩,⟨8,130⟩]⟩
    let p := (3 : ℕ).toUInt64.toFloat
    (3≤100 ∧ h.total.toNat*3<2^53 ∧ Denotes p (3 : ℕ) ∧ h.Sorted ∧ h.total≠0) ∧
      (h.rank p).toNat=3 ∧ h.estimate .bucketFloor p=.ok (.slot 5) := by
  intro h p
  have hs : h.Sorted := by
    unfold Sorted
    decide
  have ht : h.total≠0 := by decide
  have htotal : h.total.toNat=133 := by decide
  have hproduct : h.total.toNat*3<2^53 := by decide
  obtain ⟨hp,hexact⟩ := rank_exact_of_whole h (k := 3) (by norm_num) hproduct
  obtain ⟨hrank,hanswer⟩ := hexact p hp
  rw [htotal] at hrank hanswer
  obtain ⟨v,hv,hestimate⟩ := (hanswer hs ht).2 (by decide)
  obtain rfl : 5=v := Option.some.inj hv
  exact ⟨⟨by norm_num,hproduct,hp,hs,ht⟩,hrank,hestimate⟩

/-- With a product of `2^53+7` an observation is gained: three percent of this total are a hundredth
short of the rank. -/
example :
    let h : Histogram := ⟨[⟨1,3002399751580333⟩]⟩
    h.total.toNat*3/100=90071992547409 ∧ h.rank 3=90071992547410 := by
  decide +kernel

end SchedLatency.Histogram
