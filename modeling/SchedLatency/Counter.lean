namespace SchedLatency

/-- Observations counted so far; the largest word stands for "that many or more". -/
abbrev Counter := UInt64

namespace Counter

def limit : Nat := UInt64.size-1

def clamp (n : Nat) : Counter := UInt64.ofNatClamp n

def add (a b : Counter) : Counter := clamp (a.toNat+b.toNat)

theorem toNat_clamp (n : Nat) : (clamp n).toNat=min limit n := by
  unfold clamp UInt64.ofNatClamp
  split
  · rename_i h
    have hh : n<UInt64.size := h
    simp only [UInt64.toNat_ofNatLT,limit]
    omega
  · rename_i h
    have hh : ¬n<UInt64.size := h
    simp only [UInt64.toNat_ofNatLT,limit]
    omega

theorem toNat_clamp_of_lt {n : Nat} (h : n<UInt64.size) : (clamp n).toNat=n := by
  rw [toNat_clamp,limit]
  omega

theorem toNat_add (a b : Counter) : (add a b).toNat=min limit (a.toNat+b.toNat) :=
  toNat_clamp _

theorem toNat_le_limit (a : Counter) : a.toNat≤limit := by
  have h := a.toNat_lt_size
  unfold limit
  omega

theorem clamp_toNat (a : Counter) : clamp a.toNat=a := by
  have h := toNat_le_limit a
  apply UInt64.toNat_inj.mp
  rw [toNat_clamp]
  omega

theorem clamp_eq_clamp {m n : Nat} : clamp m=clamp n ↔ min limit m=min limit n := by
  rw [←UInt64.toNat_inj,toNat_clamp,toNat_clamp]

theorem clamp_le_clamp {m n : Nat} (h : m≤n) : clamp m≤clamp n := by
  rw [UInt64.le_iff_toNat_le,toNat_clamp,toNat_clamp]
  omega

/-- Counting on from a clamped sum gives the clamped sum of everything. -/
theorem add_clamp (n : Nat) (a : Counter) : add (clamp n) a=clamp (n+a.toNat) := by
  rw [add,toNat_clamp,clamp_eq_clamp]
  omega

end Counter
end SchedLatency
