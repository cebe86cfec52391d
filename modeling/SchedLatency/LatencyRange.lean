import SchedLatency.Decimal.Plain

namespace SchedLatency

/-- Microseconds, as a 128-bit word. -/
abbrev Micros := BitVec 128

namespace Micros

def max : Micros := BitVec.allOnes 128

/-- `2^exponent`, if it fits. -/
def powerOfTwo? (exponent : UInt64) : Option Micros :=
  if exponent<128 then some (1#128<<<exponent.toNat) else none

theorem powerOfTwo?_of_lt {exponent : UInt64} (h : exponent.toNat<128) :
    powerOfTwo? exponent=some (BitVec.twoPow 128 exponent.toNat) :=
  if_pos (UInt64.lt_iff_toNat_lt.mpr h)

theorem powerOfTwo?_of_ge {exponent : UInt64} (h : 128≤exponent.toNat) :
    powerOfTwo? exponent=none :=
  if_neg fun hlt => Nat.not_lt.mpr h (UInt64.lt_iff_toNat_lt.mp hlt)

end Micros

namespace LatencyRange

def next? (slot : UInt64) : Option UInt64 :=
  if slot.toNat+1<UInt64.size then some (slot+1) else none

def start (slot : UInt64) : Micros :=
  if slot=0 then 0 else (Micros.powerOfTwo? slot).getD Micros.max

def stop (slot : UInt64) : Micros :=
  match (next? slot).bind Micros.powerOfTwo? with
  | some v => v-1
  | none => Micros.max

theorem toNat_start (slot : UInt64) :
    (start slot).toNat=if slot=0 then 0
      else if slot.toNat<128 then Nat.pow 2 slot.toNat else Micros.max.toNat := by
  unfold start
  split
  · rfl
  · split
    · rename_i hlt
      rw [Micros.powerOfTwo?_of_lt hlt,Option.getD_some]
      exact BitVec.toNat_twoPow_of_lt hlt
    · rename_i hge
      rw [Micros.powerOfTwo?_of_ge (Nat.not_lt.mp hge)]
      rfl

end LatencyRange

inductive RangeMode where
  | raw
  | log2
  deriving DecidableEq, Repr

def RangeMode.label : RangeMode → UInt64 → String
  | raw,slot => Decimal.digits slot.toNat
  | log2,slot => Decimal.digits (LatencyRange.start slot).toNat ++ "->" ++
      Decimal.digits (LatencyRange.stop slot).toNat

def RangeMode.heading : RangeMode → String
  | raw => "Slot"
  | log2 => "Latency (us)"

end SchedLatency
