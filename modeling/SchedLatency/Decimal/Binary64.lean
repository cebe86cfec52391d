namespace SchedLatency.Decimal

/-- What the bits of a double stand for. A finite value is `±mantissa·2^exponent`. -/
inductive Binary64 where
  | nan
  | infinite (negative : Bool)
  | finite (negative : Bool) (mantissa : Nat) (exponent : Int)
  deriving DecidableEq, Repr

namespace Binary64

def storedBits : Nat := 52

def minExponent : Int := -1074

/-- Reads the sign, the eleven exponent bits and the fifty-two mantissa bits. A zero exponent
field has no implicit leading bit; a full one marks infinities and NaN. -/
def ofFloat (x : Float) : Binary64 :=
  let bits := x.toBits.toNat
  let negative := bits/Nat.pow 2 63 == 1
  let field := bits/Nat.pow 2 storedBits%Nat.pow 2 11
  let mantissa := bits%Nat.pow 2 storedBits
  if field=Nat.pow 2 11-1 then if mantissa=0 then infinite negative else nan
  else if field=0 then finite negative mantissa minExponent
  else finite negative (Nat.pow 2 storedBits+mantissa) (minExponent+(field-1 : Nat))

def fraction (mantissa : Nat) (exponent : Int) : Nat×Nat :=
  if exponent<0 then (mantissa,Nat.pow 2 (-exponent).toNat) else (mantissa*Nat.pow 2 exponent.toNat,1)

/-- The integer nearest to a value, a half going away from zero; infinities and NaN have none. -/
def nearestInteger? : Binary64 → Option Int
  | nan | infinite _ => none
  | finite negative mantissa exponent =>
    let (num,den) := fraction mantissa exponent
    let size := (2*num+den)/(2*den)
    some (if negative then -(size : Int) else size)

/-- The word nearest to a value, a half going away from zero: values below zero and NaN give
zero, values past the end the largest word. -/
def toWord (x : Binary64) : UInt64 :=
  match x with
  | nan => 0
  | infinite negative => if negative then 0 else UInt64.ofNat (UInt64.size-1)
  | finite .. => UInt64.ofNatClamp (x.nearestInteger?.getD 0).toNat

end Binary64
end SchedLatency.Decimal
