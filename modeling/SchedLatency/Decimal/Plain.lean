import SchedLatency.Decimal.Rounding
import SchedLatency.Decimal.Shortest

namespace SchedLatency.Decimal

def digits (n : Nat) : String := String.ofList (Nat.toDigits 10 n)

/-- Writes a natural number with its last `places` digits behind a point. -/
def withPoint (n places : Nat) : String :=
  if places=0 then digits n
  else digits (n/Nat.pow 10 places) ++ "." ++
    let low := Nat.toDigits 10 (n%Nat.pow 10 places)
    String.ofList (List.replicate (places-low.length) '0'++low)

def Numeral.reduce : Nat → Numeral → Numeral
  | 0, x => x
  | fuel+1, x =>
    if x.exponent<0 && x.digits%10=0 then Numeral.reduce fuel ⟨x.digits/10,x.exponent+1⟩ else x

def Numeral.plain (x : Numeral) : String :=
  let x := Numeral.reduce maxDigits x
  withPoint (x.digits*Nat.pow 10 x.exponent.toNat) (-x.exponent).toNat

def signText (negative : Bool) : String := if negative then "-" else ""

def nonFinite : Binary64 → String
  | .infinite negative => signText negative ++ "inf"
  | _ => "NaN"

/-- The shortest positional text that reads back as `x`; a zero keeps its sign. -/
def plain (x : Float) : String :=
  match Binary64.ofFloat x with
  | .finite negative mantissa exponent => signText negative++(shortest mantissa exponent).plain
  | other => nonFinite other

/-- `x` with a fixed number of places: the exact value, a half going to the even neighbour;
a result that rounds to zero keeps its sign. -/
def fixed (places : Nat) (x : Float) : String :=
  match Binary64.ofFloat x with
  | .finite negative mantissa exponent =>
    let (num,den) := Binary64.fraction mantissa exponent
    signText negative++withPoint (roundDiv (num*Nat.pow 10 places) den .toEven) places
  | other => nonFinite other

theorem toList_digits (n : Nat) : (digits n).toList=Nat.toDigits 10 n := by simp [digits]

end SchedLatency.Decimal
