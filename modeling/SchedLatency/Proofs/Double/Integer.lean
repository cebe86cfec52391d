import SchedLatency.Proofs.Double.Sum
import SchedLatency.Settings.Decoding

namespace SchedLatency.Double

open Float.Model Float.Model.UnpackedFloat

/-- A value that is not zero is read from one unpacked double only. -/
theorem Reads.unique {u w : UnpackedFloat} {a : ℚ} (hu : Reads u a) (hw : Reads w a) (hpos : 0<a) :
    u=w := by
  generalize hab : a=b at hw
  rcases hu with s | @⟨m,e,hm,bits,low,full⟩
  · exact absurd hpos (lt_irrefl 0)
  · rcases hw with s | @⟨k,f,hk,bits',low',full'⟩
    · exact absurd hab hpos.ne'
    · rcases lt_trichotomy e f with hlt | rfl | hgt
      · exact absurd hab (lt_of_exponent_lt bits low full' hlt).ne
      · have hunit : (2 : ℚ)^e≠0 := by positivity
        obtain rfl : m=k := by exact_mod_cast mul_right_cancel₀ hunit hab
        rfl
      · exact absurd hab (lt_of_exponent_lt bits' low' full hgt).ne'

/-- The double that a word converts to. -/
def ofWord (n : ℤ) : Float := .ofModel (.ofInt64 (.ofInt n))

end SchedLatency.Double
