import SchedLatency.Decimal.Reading
import SchedLatency.Proofs.Tables.Reading

namespace SchedLatency.Decimal

theorem isDigit_of_mem_digits {n : Nat} {c : Char} (h : c∈(digits n).toList) : c.isDigit=true := by
  rw [toList_digits] at h
  exact Nat.isDigit_of_mem_toDigits (by decide) (by decide) h

def Uses (marks : List Char) (text : String) : Prop := ∀ c∈text.toList,c.isDigit=true ∨ c∈marks

theorem toNat_of_isDigit {c : Char} (h : c.isDigit=true) : 48≤c.toNat ∧ c.toNat≤57 := by
  have hrange : ('0'≤c && c ≤ '9')=true := h
  rwa [Bool.and_eq_true,decide_eq_true_eq,decide_eq_true_eq] at hrange

theorem isBlank_eq_false_of_isDigit {c : Char} (h : c.isDigit=true) : Text.isBlank c=false := by
  obtain ⟨hlow,hhigh⟩ := toNat_of_isDigit h
  unfold Text.isBlank
  simp only [Bool.or_eq_false_iff,Bool.and_eq_false_imp,decide_eq_true_eq,decide_eq_false_iff_not,
    beq_eq_false_iff_ne]
  omega

namespace Uses

variable {marks : List Char} {s t : String}

theorem digits (marks : List Char) (n : Nat) : Uses marks (Decimal.digits n) :=
  fun _ hc => .inl (isDigit_of_mem_digits hc)

theorem of_marks (h : ∀ c∈s.toList,c∈marks) : Uses marks s := fun c hc => .inr (h c hc)

theorem append (hs : Uses marks s) (ht : Uses marks t) : Uses marks (s++t) := by
  intro c hc
  rw [String.toList_append,List.mem_append] at hc
  rcases hc with hc | hc
  · exact hs c hc
  · exact ht c hc

theorem not_mem (h : Uses marks s) {mark : Char} (hdigit : mark.isDigit=false)
    (hmark : mark∉marks) : mark∉s.toList := by
  intro hc
  rcases h mark hc with h | h
  · rw [h] at hdigit
    contradiction
  · exact hmark h

theorem trim_eq (h : Uses marks s) (solid : ∀ c∈marks,Text.isBlank c=false) : Text.trim s=s := by
  apply Text.trim_eq_self
  intro c hc
  rcases h c hc with h | h
  · exact isBlank_eq_false_of_isDigit h
  · exact solid c h

end Uses

theorem not_mem_digits {mark : Char} (hdigit : mark.isDigit=false) (n : Nat) :
    mark∉(digits n).toList :=
  (Uses.digits [] n).not_mem hdigit List.not_mem_nil

theorem trim_digits (n : Nat) : Text.trim (digits n)=digits n :=
  (Uses.digits [] n).trim_eq nofun

theorem digits_ne_empty (n : Nat) : digits n≠"" := by
  intro h
  have hl := congrArg String.toList h
  rw [toList_digits] at hl
  exact Nat.toDigits_ne_nil hl

theorem digits_ne_dash (n : Nat) : digits n≠"-" := by
  intro h
  have hdash : '-'∉(digits n).toList := not_mem_digits rfl n
  rw [h] at hdash
  exact hdash (by decide)

theorem digitValue?_digit {c : Char} (h : c.isDigit=true) :
    digitValue? 10 c=some (c.toNat - '0'.toNat) := by
  have hrange : ('0'≤c && c ≤ '9')=true := h
  have hnine := (toNat_of_isDigit h).2
  have hzero : '0'.toNat=48 := rfl
  have hlt : decide (c.toNat-48<10)=true := decide_eq_true (by omega)
  unfold digitValue?
  simp only [hrange,if_true,hzero,Option.filter_some,hlt]

theorem readDigits_eq {cs : List Char} (h : ∀ c∈cs,c.isDigit=true) (value : Nat) :
    readDigits 10 value cs=some (Nat.ofDigitChars 10 cs value) := by
  induction cs generalizing value with
  | nil => rfl
  | cons c cs ih =>
    have hfirst := digitValue?_digit (h c List.mem_cons_self)
    have hrest := ih fun d hd => h d (List.mem_cons_of_mem c hd)
    rw [readDigits,hfirst,Option.bind_some,hrest,Nat.ofDigitChars_cons,Nat.mul_comm]

theorem natural?_digits (n : Nat) : natural? 10 (digits n).toList=some n := by
  have hread := readDigits_eq (fun _ => isDigit_of_mem_digits (n := n)) 0
  unfold natural?
  rw [toList_digits] at hread ⊢
  rw [if_neg (by simp),hread,Nat.ofDigitChars_toDigits (by decide) (by decide)]

theorem unsigned?_digits (n : Nat) : unsigned? 10 (digits n).toList=some n := by
  have hplus : '+'∉(digits n).toList := not_mem_digits rfl n
  unfold unsigned?
  split
  · rename_i hcs
    rw [hcs] at hplus
    exact absurd List.mem_cons_self hplus
  · exact natural?_digits n

theorem word?_digits (w : UInt64) : word? (digits w.toNat)=some w := by
  have hlt : decide (w.toNat<UInt64.size)=true := decide_eq_true w.toNat_lt
  unfold word?
  rw [unsigned?_digits,Option.filter_some,if_pos hlt,Option.map_some,UInt64.ofNat_toNat]

def doubleMarks : List Char := ['-','.','N','a','i','n','f']

theorem doubleMarks_solid : ∀ c∈doubleMarks,Text.isBlank c=false := by
  simp [doubleMarks,Text.isBlank]

theorem uses_signText (negative : Bool) : Uses doubleMarks (signText negative) := by
  apply Uses.of_marks
  cases negative with
  | false => exact nofun
  | true => simp [signText,doubleMarks]

theorem uses_withPoint (n places : Nat) : Uses doubleMarks (withPoint n places) := by
  have hpoint : Uses doubleMarks "." := Uses.of_marks (by simp [doubleMarks])
  unfold withPoint
  split
  · exact .digits _ _
  · apply ((Uses.digits _ _).append hpoint).append
    intro c hc
    rw [String.toList_ofList,List.mem_append,List.mem_replicate] at hc
    rcases hc with ⟨-,rfl⟩ | hc
    · exact .inl rfl
    · exact .inl (Nat.isDigit_of_mem_toDigits (by decide) (by decide) hc)

theorem uses_nonFinite (x : Binary64) : Uses doubleMarks (nonFinite x) := by
  have hnan : Uses doubleMarks "NaN" := Uses.of_marks (by simp [doubleMarks])
  have hinf : Uses doubleMarks "inf" := Uses.of_marks (by simp [doubleMarks])
  cases x with
  | nan => exact hnan
  | infinite negative => exact (uses_signText negative).append hinf
  | finite negative mantissa exponent => exact hnan

theorem uses_fixed (places : Nat) (x : Float) : Uses doubleMarks (fixed places x) := by
  unfold fixed
  split
  · exact (uses_signText _).append (uses_withPoint _ _)
  · exact uses_nonFinite _

end SchedLatency.Decimal
