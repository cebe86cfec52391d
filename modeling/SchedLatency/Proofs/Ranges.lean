import Mathlib.Algebra.Ring.Nat
import Mathlib.Data.Nat.Log
import SchedLatency.LatencyRange

namespace SchedLatency

namespace Micros

theorem toNat_max : max.toNat=2^128-1 := rfl

theorem le_max (v : Micros) : v ≤ max := by
  rw [BitVec.le_def,toNat_max]
  have h := v.isLt
  omega

theorem powerOfTwo?_eq_some_iff (exponent : UInt64) (v : Micros) :
    powerOfTwo? exponent=some v ↔ exponent.toNat<128 ∧ v.toNat=2^exponent.toNat := by
  by_cases hlt : exponent.toNat<128
  · have hpower := BitVec.toNat_twoPow_of_lt hlt
    rw [powerOfTwo?_of_lt hlt,Option.some_inj]
    constructor
    · intro h
      rw [←h]
      exact ⟨hlt,hpower⟩
    · intro h
      exact BitVec.eq_of_toNat_eq (hpower.trans h.2.symm)
  · rw [powerOfTwo?_of_ge (Nat.not_lt.mp hlt)]
    exact iff_of_false nofun fun h => hlt h.1

theorem toNat_pred_of_powerOfTwo? {exponent : UInt64} {v : Micros}
    (h : powerOfTwo? exponent=some v) : (v-1).toNat+1=v.toNat := by
  have hone : 1≤v.toNat := by
    rw [((powerOfTwo?_eq_some_iff exponent v).mp h).2]
    exact Nat.one_le_two_pow
  have hle : 1#128≤v := BitVec.le_def.mpr hone
  change (v-1#128).toNat+1=v.toNat
  rw [BitVec.toNat_sub_of_le hle]
  exact Nat.sub_add_cancel hone

end Micros

namespace LatencyRange

variable {slot s t : UInt64} {v : Micros}

theorem next?_eq_some_iff (slot n : UInt64) : next? slot=some n ↔ n.toNat=slot.toNat+1 := by
  have hn := n.toNat_lt_size
  unfold next?
  split
  · rename_i hlt
    have hnext : (slot+1).toNat=slot.toNat+1 := by
      rw [UInt64.toNat_add]
      exact Nat.mod_eq_of_lt hlt
    rw [Option.some_inj,←UInt64.toNat_inj,hnext]
    exact eq_comm
  · rename_i hge
    exact iff_of_false nofun (by omega)

theorem start_of_ge (h : 128 ≤ slot.toNat) : start slot=Micros.max := by
  have hzero : slot≠0 := by
    rintro rfl
    exact absurd h (by decide)
  unfold start
  rw [if_neg hzero,Micros.powerOfTwo?_of_ge h,Option.getD_none]

theorem toNat_start_of_lt (hzero : slot≠0) (h : slot.toNat<128) :
    (start slot).toNat=2^slot.toNat := by
  rw [toNat_start,if_neg hzero,if_pos h]
  rfl

theorem stop_of_ge (h : 127 ≤ slot.toNat) : stop slot=Micros.max := by
  have hnone : (next? slot).bind Micros.powerOfTwo?=none := by
    rw [Option.bind_eq_none_iff]
    intro n hn
    rw [next?_eq_some_iff] at hn
    exact Micros.powerOfTwo?_of_ge (by omega)
  unfold stop
  rw [hnone]

/-- The end of a range lies one below a power of two, which for slot 127 no longer fits. -/
theorem toNat_stop_of_lt (h : slot.toNat<128) : (stop slot).toNat=2^(slot.toNat+1)-1 := by
  rcases Nat.lt_or_ge slot.toNat 127 with hlt | hge
  · obtain ⟨n,hn⟩ : ∃ n : UInt64,n.toNat=slot.toNat+1 :=
      ⟨UInt64.ofNat (slot.toNat+1),UInt64.toNat_ofNat_of_lt' (by rw [UInt64.size]; omega)⟩
    have hpower : Micros.powerOfTwo? n=some _ := Micros.powerOfTwo?_of_lt (by omega)
    have hvalue := ((Micros.powerOfTwo?_eq_some_iff n _).mp hpower).2
    have hpred := Micros.toNat_pred_of_powerOfTwo? hpower
    rw [hvalue] at hpred
    unfold stop
    rw [(next?_eq_some_iff slot n).mpr hn,Option.bind_some,hpower,←hn]
    exact Nat.eq_sub_of_add_eq hpred
  · have hslot : slot.toNat=127 := by omega
    rw [stop_of_ge hge,hslot]
    rfl

theorem log2_lt (v : Micros) : v.toNat.log2<128 := by
  rcases Nat.eq_zero_or_pos v.toNat with hzero | hpos
  · rw [hzero,Nat.log2_zero]
    decide
  · exact (Nat.log2_lt hpos.ne').mpr v.isLt

/-- Slot zero holds zero as well, which has no logarithm. -/
theorem covers_zero_iff : start 0≤v ∧ v ≤ stop 0 ↔ 0=v.toNat.log2 := by
  change 0≤v.toNat ∧ v.toNat≤1 ↔ 0=v.toNat.log2
  constructor
  · rintro ⟨-,hone⟩
    rcases Nat.le_one_iff_eq_zero_or_eq_one.mp hone with h | h
    · rw [h,Nat.log2_zero]
    · rw [h]
      rfl
  · intro hlog
    have h := Nat.lt_log2_self (n := v.toNat)
    rw [←hlog] at h
    omega

theorem covers_iff (hv : v≠Micros.max) (slot : UInt64) :
    start slot≤v ∧ v ≤ stop slot ↔ slot.toNat=v.toNat.log2 := by
  by_cases hzero : slot=0
  · rw [hzero]
    exact covers_zero_iff
  have hword : slot.toNat≠0 := fun h => hzero (UInt64.toNat_inj.mp h)
  rcases Nat.lt_or_ge slot.toNat 128 with hlt | hge
  · have hlow : 0<2^slot.toNat := Nat.two_pow_pos _
    have hhigh : 0<2^(slot.toNat+1) := Nat.two_pow_pos _
    rw [BitVec.le_def,BitVec.le_def,toNat_start_of_lt hzero hlt,toNat_stop_of_lt hlt]
    constructor
    · rintro ⟨hstart,hstop⟩
      have hne : v.toNat≠0 := by omega
      exact ((Nat.log2_eq_iff hne).mpr ⟨hstart,by omega⟩).symm
    · intro hlog
      have hne : v.toNat≠0 := by
        intro h
        rw [h,Nat.log2_zero] at hlog
        exact hword hlog
      obtain ⟨hstart,hstop⟩ := (Nat.log2_eq_iff hne).mp hlog.symm
      exact ⟨hstart,by omega⟩
  · have hlog := log2_lt v
    rw [start_of_ge hge]
    refine iff_of_false ?_ (by omega)
    rintro ⟨hle,-⟩
    exact hv (BitVec.le_antisymm (Micros.le_max v) hle)

theorem existsUnique_covers (hv : v≠Micros.max) : ∃! slot,start slot≤v ∧ v ≤ stop slot := by
  have hslot : (UInt64.ofNat v.toNat.log2).toNat=v.toNat.log2 := by
    have hlog := log2_lt v
    exact UInt64.toNat_ofNat_of_lt' (by rw [UInt64.size]; omega)
  refine ⟨UInt64.ofNat v.toNat.log2,(covers_iff hv _).mpr hslot,?_⟩
  intro other hother
  apply UInt64.toNat_inj.mp
  rw [(covers_iff hv other).mp hother,hslot]

theorem start_zero_le (v : Micros) : start 0≤v := Nat.zero_le v.toNat

theorem start_mono (h : s≤t) : start s ≤ start t := by
  have hst : s.toNat≤t.toNat := h
  rcases Nat.lt_or_ge t.toNat 128 with hlt | hge
  · by_cases hs : s=0
    · rw [hs]
      exact start_zero_le _
    · have hword : s.toNat≠0 := fun h0 => hs (UInt64.toNat_inj.mp h0)
      have ht : t≠0 := by
        rintro rfl
        exact hword (Nat.le_zero.mp hst)
      rw [BitVec.le_def,toNat_start_of_lt hs (by omega),toNat_start_of_lt ht hlt]
      exact Nat.pow_le_pow_right Nat.two_pos hst
  · rw [start_of_ge hge]
    exact Micros.le_max _

theorem stop_mono (h : s≤t) : stop s ≤ stop t := by
  have hst : s.toNat≤t.toNat := h
  rcases Nat.lt_or_ge t.toNat 128 with hlt | hge
  · have hpow : 2^(s.toNat+1)≤2^(t.toNat+1) := Nat.pow_le_pow_right Nat.two_pos (by omega)
    rw [BitVec.le_def,toNat_stop_of_lt (by omega),toNat_stop_of_lt hlt]
    omega
  · have hend : 127≤t.toNat := by omega
    rw [stop_of_ge hend]
    exact Micros.le_max _

theorem start_le_stop (slot : UInt64) : start slot ≤ stop slot := by
  rcases Nat.lt_or_ge slot.toNat 127 with hlt | hge
  · by_cases hzero : slot=0
    · rw [hzero]
      exact start_zero_le _
    · have hpos : 0<2^slot.toNat := Nat.two_pow_pos _
      rw [BitVec.le_def,toNat_start_of_lt hzero (by omega),toNat_stop_of_lt (by omega),
        Nat.pow_succ]
      omega
  · rw [stop_of_ge hge]
    exact Micros.le_max _

theorem stop_add_one (h : slot<127) : (stop slot).toNat+1=(start (slot+1)).toNat := by
  have hlt : slot.toNat<127 := h
  have hnext : (slot+1).toNat=slot.toNat+1 := by
    rw [UInt64.toNat_add]
    exact Nat.mod_eq_of_lt (by change slot.toNat+1<2^64; omega)
  have hzero : slot+1≠0 := by
    intro h0
    rw [h0,UInt64.toNat_zero] at hnext
    omega
  have hpos : 0<2^(slot.toNat+1) := Nat.two_pow_pos _
  rw [toNat_stop_of_lt (by omega),toNat_start_of_lt hzero (by omega),hnext]
  omega

/-- Every latency but the largest word lies in the range of exactly one slot, which is zero for zero
and its logarithm otherwise. Up to slot 127 a range begins behind the end of the one before it; with
the slots neither the beginnings nor the ends of ranges decrease; and from slot 128 on both are the
largest word. On the way the next slot, the power and its predecessor are exact or not taken: a
power that is there has not lost a bit, and there is none of a slot that does not fit. -/
theorem ranges_partition :
    (∀ v : Micros,v≠Micros.max → (∃! slot,start slot≤v ∧ v ≤ stop slot) ∧
      ∀ slot,start slot≤v ∧ v ≤ stop slot →
        (v=0 → slot=0) ∧ (v≠0 → slot.toNat=v.toNat.log2)) ∧
    (∀ slot,slot<127 → (stop slot).toNat+1=(start (slot+1)).toNat) ∧
    (∀ slot,start slot ≤ stop slot ∧ ∀ later,slot≤later →
      start slot ≤ start later ∧ stop slot ≤ stop later) ∧
    (∀ slot,128 ≤ slot → start slot=Micros.max ∧ stop slot=Micros.max) ∧
    (∀ slot n,next? slot=some n ↔ n.toNat=slot.toNat+1) ∧
    ∀ exponent v,(Micros.powerOfTwo? exponent=some v ↔
        exponent.toNat<128 ∧ v.toNat=2^exponent.toNat) ∧
      (Micros.powerOfTwo? exponent=some v → (v-1).toNat+1=v.toNat) := by
  refine ⟨?_,fun _ => stop_add_one,?_,?_,next?_eq_some_iff,?_⟩
  · intro v hv
    refine ⟨existsUnique_covers hv,?_⟩
    intro slot hslot
    have hlog := (covers_iff hv slot).mp hslot
    refine ⟨?_,fun _ => hlog⟩
    intro hzero
    rw [hzero] at hlog
    exact UInt64.toNat_inj.mp hlog
  · intro slot
    exact ⟨start_le_stop slot,fun later h => ⟨start_mono h,stop_mono h⟩⟩
  · intro slot h
    have hge : 128 ≤ slot.toNat := h
    exact ⟨start_of_ge hge,stop_of_ge (by omega)⟩
  · intro exponent v
    refine ⟨Micros.powerOfTwo?_eq_some_iff exponent v,?_⟩
    intro h
    exact Micros.toNat_pred_of_powerOfTwo? h

end LatencyRange
end SchedLatency
