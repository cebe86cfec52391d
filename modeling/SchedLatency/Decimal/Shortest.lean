import SchedLatency.Decimal.Binary64

namespace SchedLatency.Decimal

structure Numeral where
  digits : Nat
  exponent : Int
  deriving DecidableEq, Repr

namespace Shortest

/-- A positive finite double `mantissa·2^exponent`, with what rounding to it takes. -/
structure Target where
  mantissa : Nat
  exponent : Int
  deriving Repr

/-- Scales by four, so that the ends of the rounding interval are whole. -/
def Target.scaled (t : Target) : Nat := 4*t.mantissa

/-- Distance, in quarters of a unit, to the lower end: the double below a power of two is only
half as far away, except at the bottom of the range. -/
def Target.below (t : Target) : Nat :=
  if t.mantissa=Nat.pow 2 Binary64.storedBits && t.exponent≠Binary64.minExponent then 1 else 2

def Target.closed (t : Target) : Bool := t.mantissa%2==0

/-- `a·2^(exponent-2)` against `c·10^k`, cross-multiplied into natural numbers. -/
def compareScaled (a : Nat) (exponent : Int) (c : Nat) (k : Int) : Ordering :=
  let left := a*Nat.pow 2 (exponent-2).toNat*Nat.pow 10 (-k).toNat
  let right := c*Nat.pow 2 (2-exponent).toNat*Nat.pow 10 k.toNat
  compare left right

def Target.holds (t : Target) (c : Nat) (k : Int) : Bool :=
  let low := compareScaled (t.scaled-t.below) t.exponent c k
  let high := compareScaled (t.scaled+2) t.exponent c k
  (low==.lt || t.closed && low==.eq) && (high==.gt || t.closed && high==.eq)

/-- Integer part of the target on the grid of spacing `10^k`, and the remainder's size
against half a step. -/
def Target.onGrid (t : Target) (k : Int) : Nat×Ordering :=
  let num := t.mantissa*Nat.pow 2 t.exponent.toNat*Nat.pow 10 (-k).toNat
  let den := Nat.pow 2 (-t.exponent).toNat*Nat.pow 10 k.toNat
  (num/den,compare (2*(num%den)) den)

/-- The grid point to print on the grid of spacing `10^k`, if one of the two neighbours rounds
to the target. Of two the nearer is taken, an exact tie going up. -/
def Target.pick? (t : Target) (k : Int) : Option Numeral :=
  let (floor,half) := t.onGrid k
  let down := t.holds floor k
  let up := t.holds (floor+1) k
  if down && up then some ⟨if half==.lt then floor else floor+1,k⟩
  else if down then some ⟨floor,k⟩
  else if up then some ⟨floor+1,k⟩
  else none

def Target.magnitude (t : Target) : Nat → Int → Int
  | 0, p => p
  | fuel+1, p =>
    if compareScaled t.scaled t.exponent 1 p==.lt then p else t.magnitude fuel (p+1)

def Target.search (t : Target) (magnitude : Int) : Nat → Nat → Numeral
  | 0, _ => ⟨t.mantissa,t.exponent⟩
  | fuel+1, n => (t.pick? (magnitude-n)).getD (t.search magnitude fuel (n+1))

end Shortest

def maxDigits : Nat := 17

/-- The fewest digits that read back as `mantissa·2^exponent`. -/
def shortest (mantissa : Nat) (exponent : Int) : Numeral :=
  if mantissa=0 then ⟨0,0⟩
  else
    let t : Shortest.Target := ⟨mantissa,exponent⟩
    let bits : Int := exponent+mantissa.log2
    let start := bits*30103/100000-2
    t.search (t.magnitude 8 start) maxDigits 1

end SchedLatency.Decimal
